import PanelRelay.Proofs.Envelope.Decoding
import PanelRelay.Proofs.Envelope.Details
import PanelRelay.Proofs.Text.Octets

/-!
How values are spelled. Of octets a reply is read only as a request would spell them, white space
around the text aside; there is one such text for each list of octets.
-/

namespace PanelRelay.Envelope

open Event (Detail)
open Xml (Element)

/-- The local name of the type under which an element gives its value. -/
def HasType (element : Element) (label : String) : Prop :=
  (element.tag.value? "type").map Xml.afterColon = some label

/-- The text that some property of a request carries for a value. -/
def IsSentAs (value : Property.Value) (text : String) : Prop :=
  ∃ detail property child, detail.value = some value ∧
    (propertyNode detail).map Xml.Node.element? = .ok (some property) ∧
    property.child? "value" = some child ∧ child.text = text

theorem element?_propertyTree (detail : Detail) :
    (propertyTree detail).element? = some (propertyElement detail) := by
  rw [propertyTree_eq, Xml.Element.element?_node]

theorem text_valueElement (value : Property.Value) :
    (valueElement (some value)).text = (spelled value).2 :=
  text_textNodes _ _

theorem map_judged_eq_ok_iff {α β : Type} (texts : List (String × String)) (result : α)
    (f : α → β) (found : β) :
    (judged texts result).map f = .ok found ↔
      (∀ item ∈ texts, Sendable item.2) ∧ f result = found := by
  rw [← offence?_eq_none_iff, judged]
  cases offence? texts with
  | none => simp [Except.map]
  | some error => simp [Except.map]

theorem isSentAs_iff (value : Property.Value) (text : String) :
    IsSentAs value text ↔
      (∀ item ∈ valueTexts (some value), Sendable item.2) ∧ text = (spelled value).2 := by
  constructor
  · rintro ⟨detail, property, child, hvalue, hproperty, hchild, rfl⟩
    rw [propertyNode_eq, map_judged_eq_ok_iff, element?_propertyTree] at hproperty
    obtain ⟨hsendable, hproperty⟩ := hproperty
    obtain rfl := Option.some.inj hproperty
    rw [(child?_propertyElement detail).2.2, hvalue] at hchild
    obtain rfl := Option.some.inj hchild
    rw [detailTexts, hvalue] at hsendable
    exact ⟨fun item hitem => hsendable item (List.mem_append_left _ hitem), text_valueElement value⟩
  · rintro ⟨hsendable, rfl⟩
    let detail : Detail := { id := none, index := 0, value := some value }
    refine ⟨detail, propertyElement detail, valueElement (some value), rfl, ?_,
      (child?_propertyElement detail).2.2, text_valueElement value⟩
    rw [propertyNode_eq, map_judged_eq_ok_iff, element?_propertyTree]
    refine ⟨fun item hitem => hsendable item ?_, rfl⟩
    simpa [detailTexts, optionalTexts] using hitem

theorem isSentAs_bytes_iff (octets : List UInt8) (text : String) :
    IsSentAs (.bytes octets) text ↔ text.toList = Base64.encode octets := by
  have hspelled : (spelled (.bytes octets)).2.toList = Base64.encode octets := String.toList_ofList
  rw [isSentAs_iff, ← String.toList_inj, hspelled]
  exact ⟨fun h => h.2, fun h => ⟨nofun, h⟩⟩

theorem octets?_eq_ok_iff (element text : String) (octets : List UInt8) :
    octets? element text = .ok octets ↔ trim text.toList = Base64.encode octets := by
  rw [← Base64.decode?_eq_some_iff, octets?]
  cases Base64.decode? (trim text.toList) with
  | none => simp
  | some found => simp

theorem octets?_eq_error_iff (element text : String) (error : Error) :
    octets? element text = .error error ↔
      (∀ octets, trim text.toList ≠ Base64.encode octets) ∧ error = .invalidValue element text := by
  simp only [ne_eq, ← Base64.decode?_eq_some_iff, octets?]
  cases Base64.decode? (trim text.toList) with
  | none => simp [eq_comm]
  | some found => simp

theorem decodeValue_of_octets {element : Element} (htype : HasType element "base64Binary") :
    decodeValue element = (octets? "value" element.text).map .bytes := by
  rw [HasType] at htype
  simp only [decodeValue, htype]
  rw [if_neg (by decide), if_neg (by decide), if_pos trivial]

/--
Octets are accepted in one spelling only, the one in which they are sent, and this is the standard
one. Any other text is refused as it stands.
-/
theorem octets_have_one_spelling {element : Element} (htype : HasType element "base64Binary") :
    (∀ octets, decodeValue element = .ok (.bytes octets) ↔
        ∃ text, IsSentAs (.bytes octets) text ∧ trim element.text.toList = text.toList) ∧
      (∀ octets, ∃ text, ∀ other, IsSentAs (.bytes octets) other ↔ other = text) ∧
      (∀ octets text, IsSentAs (.bytes octets) text ↔ Base64.IsSpelling octets text.toList) ∧
      ∀ error, decodeValue element = .error error ↔
        (∀ octets, ¬ Base64.IsSpelling octets (trim element.text.toList)) ∧
          error = .invalidValue "value" element.text := by
  rw [decodeValue_of_octets htype]
  refine ⟨?_, ?_, ?_, ?_⟩
  · intro octets
    rw [map_eq_ok_iff fun _ _ => Property.Value.bytes.inj, octets?_eq_ok_iff]
    constructor
    · intro htrim
      refine ⟨octetsText octets, (isSentAs_bytes_iff octets _).mpr String.toList_ofList, ?_⟩
      rw [htrim, octetsText, String.toList_ofList]
    · rintro ⟨text, hsent, htrim⟩
      rw [htrim, (isSentAs_bytes_iff octets text).mp hsent]
  · intro octets
    refine ⟨octetsText octets, fun other => ?_⟩
    rw [isSentAs_bytes_iff, octetsText, ← String.toList_inj, String.toList_ofList]
  · intro octets text
    rw [isSentAs_bytes_iff, Base64.isSpelling_iff]
  · intro error
    simp only [map_eq_error_iff, octets?_eq_error_iff, Base64.isSpelling_iff, ne_eq]

/-- Six octets, with white space around them that is no blank of markup. -/
def spacedOctets : Element where
  tag := typedTag "value" "xsd:base64Binary"
  children := [.text "\u2003qrvM3e7/\n"]

/-- One octet, with an unused bit that is not zero. -/
def loosePadding : Element where
  tag := typedTag "value" "xsd:base64Binary"
  children := [.text "qr=="]

theorem octets_have_one_spelling_spaced_and_loose :
    decodeValue spacedOctets = .ok (.bytes [0xaa, 0xbb, 0xcc, 0xdd, 0xee, 0xff]) ∧
      decodeValue loosePadding = .error (.invalidValue "value" "qr==") := by
  obtain ⟨haccepted, -, -, -⟩ := @octets_have_one_spelling spacedOctets rfl
  obtain ⟨-, -, -, hrefused⟩ := @octets_have_one_spelling loosePadding rfl
  have hsent : IsSentAs (.bytes [0xaa, 0xbb, 0xcc, 0xdd, 0xee, 0xff]) "qrvM3e7/" :=
    (isSentAs_bytes_iff _ _).mpr (by decide)
  have hunread : Base64.decode? (trim loosePadding.text.toList) = none := by decide
  refine ⟨(haccepted _).mpr ⟨_, hsent, by decide⟩, (hrefused _).mpr ⟨fun octets => ?_, rfl⟩⟩
  rw [Base64.isSpelling_iff, ← Base64.decode?_eq_some_iff, hunread]
  exact nofun

end PanelRelay.Envelope
