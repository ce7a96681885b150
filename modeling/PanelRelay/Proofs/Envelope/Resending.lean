import PanelRelay.Envelope.Reply
import PanelRelay.Proofs.Envelope.Acceptance
import PanelRelay.Proofs.Envelope.Steps
import PanelRelay.Proofs.Xml.Legality
import PanelRelay.Proofs.Xml.Lookup
import PanelRelay.Proofs.Xml.Plain

/-!
Messages that were decoded and are sent again. Their free texts come from texts of the reply as they
are, so that each character was allowed in a document, and a request may carry the same characters.
-/

namespace PanelRelay.Envelope

open Event (Detail Message)
open Xml (Element Version)

def AreCarried (texts : List (String × String)) : Prop :=
  ∀ item ∈ texts, isCarried item.2 = true

theorem AreCarried.append {first second : List (String × String)} (hfirst : AreCarried first)
    (hsecond : AreCarried second) : AreCarried (first ++ second) :=
  List.forall_mem_append.mpr ⟨hfirst, hsecond⟩

section Decoded

variable {element : Element} (helement : element.Carries Version.v10.allows)

include helement

theorem isCarried_text : isCarried element.text = true :=
  List.all_eq_true.mpr helement.text

theorem areCarried_nillable? (name : String) :
    AreCarried (optionalTexts name ((element.child? name).bind nillable?)) := by
  cases hchild : element.child? name with
  | none => exact nofun
  | some child =>
      rw [Option.bind_some, nillable?]
      cases isNil child with
      | true => exact nofun
      | false =>
          have htext := isCarried_text (helement.of_child? hchild)
          exact List.forall_mem_singleton.mpr htext

theorem areCarried_decodeValue {value : Property.Value} (h : decodeValue element = .ok value) :
    AreCarried (valueTexts (some value)) := by
  have hcarried : AreCarried (valueTexts (some (.text element.text))) :=
    List.forall_mem_singleton.mpr (isCarried_text helement)
  unfold decodeValue at h
  split at h
  next =>
    obtain rfl := Except.ok.inj h
    exact hcarried
  next label _ =>
    split at h
    next =>
      obtain rfl := Except.ok.inj h
      exact hcarried
    next =>
      split at h
      next =>
        obtain ⟨n, -, rfl⟩ := eq_ok_of_map_eq_ok h
        exact nofun
      next =>
        split at h
        next =>
          obtain ⟨octets, -, rfl⟩ := eq_ok_of_map_eq_ok h
          exact nofun
        next => cases h

theorem areCarried_decodeOptionalValue {value : Option Property.Value}
    (h : decodeOptionalValue element = .ok value) : AreCarried (valueTexts value) := by
  unfold decodeOptionalValue at h
  split at h
  next =>
    obtain rfl := Except.ok.inj h
    exact nofun
  next child hchild =>
    split at h
    next =>
      obtain rfl := Except.ok.inj h
      exact nofun
    next =>
      obtain ⟨found, hfound, rfl⟩ := eq_ok_of_map_eq_ok h
      exact areCarried_decodeValue (helement.of_child? hchild) hfound

theorem areCarried_decodeDetail {detail : Detail} (h : decodeDetail element = .ok detail) :
    AreCarried (detailTexts detail) := by
  obtain ⟨index, -, h⟩ := eq_ok_of_bind_eq_ok h
  obtain ⟨value, hvalue, h⟩ := eq_ok_of_bind_eq_ok h
  obtain rfl := Except.ok.inj h
  exact (areCarried_decodeOptionalValue helement hvalue).append (areCarried_nillable? helement "id")

theorem areCarried_decodeOptionalDetails {details : Option (List Detail)}
    (h : decodeOptionalDetails element = .ok details) :
    AreCarried ((details.getD []).flatMap detailTexts) := by
  unfold decodeOptionalDetails at h
  split at h
  next =>
    obtain rfl := Except.ok.inj h
    exact nofun
  next child hchild =>
    split at h
    next =>
      obtain rfl := Except.ok.inj h
      exact nofun
    next =>
      obtain ⟨found, hfound, rfl⟩ := eq_ok_of_map_eq_ok h
      have hdetails : ∀ detail ∈ found, AreCarried (detailTexts detail) := by
        refine forall_of_mapM_eq_ok ?_ hfound
        intro item hitem detail hdetail
        have hcarries := (helement.of_child? hchild).of_mem_elements (List.mem_filter.mp hitem).1
        exact areCarried_decodeDetail hcarries hdetail
      intro item hitem
      obtain ⟨detail, hdetail, hitem⟩ := List.mem_flatMap.mp hitem
      exact hdetails detail hdetail item hitem

theorem areCarried_decodeMessage {message : Message} (h : decodeMessage element = .ok message) :
    AreCarried (messageTexts message) := by
  obtain ⟨details, hdetails, h⟩ := eq_ok_of_bind_eq_ok h
  obtain rfl := Except.ok.inj h
  exact (areCarried_decodeOptionalDetails helement hdetails).append
    (areCarried_nillable? helement "name")

theorem areCarried_decodeContent {message : Message} (h : decodeContent element = .ok message) :
    AreCarried (messageTexts message) := by
  unfold decodeContent at h
  split at h
  next => cases h
  next =>
    split at h
    next =>
      split at h
      next => cases h
      next result hresult => exact areCarried_decodeMessage (helement.of_child? hresult) h
    next => cases h

theorem areCarried_decodeEnvelope {message : Message} (h : decodeEnvelope element = .ok message) :
    AreCarried (messageTexts message) := by
  unfold decodeEnvelope at h
  split at h
  next =>
    split at h
    next => cases h
    next body hbody =>
      split at h
      next => cases h
      next content rest hcontent =>
        have hmember : content ∈ body.elements := by
          rw [hcontent]
          exact List.mem_cons_self
        exact areCarried_decodeContent ((helement.of_child? hbody).of_mem_elements hmember) h
  next => cases h

end Decoded

/-- A reply that may hold no more than a request may: what it says can be said again. -/
theorem exists_encode_of_decode (order : DeclarationOrder) {octets : List UInt8} {message : Message}
    (hversion : Xml.declaredVersion? octets ≠ some .v11) (h : decode octets = .ok message) :
    ∃ text, encode order message = .ok text := by
  unfold decode at h
  split at h
  next => cases h
  next root hroot =>
    obtain ⟨version, hdeclared, hcarries⟩ := Element.carries_of_parse? hroot
    cases version with
    | v10 =>
        have htexts := areCarried_decodeEnvelope hcarries h
        exact ⟨_, (encode_eq_ok_iff_isCarried order message _).mpr ⟨htexts, rfl⟩⟩
    | v11 => exact absurd hdeclared hversion

/-- A name in three spellings: characters as themselves, by references, and as data. -/
def spelledReply : List UInt8 :=
  Utf8.encode (String.ofList (Xml.tagged "Envelope" (Xml.tagged "Body" (Xml.tagged responseName
    (Xml.tagged resultName (Xml.tagged "name" "a&lt;&#9;<![CDATA[&]]>".toList))))))

theorem exists_encode_of_spelledReply :
    Xml.declaredVersion? spelledReply ≠ some .v11 ∧
      decode spelledReply = .ok { name := some "a<\t&", details := none } ∧
        ∃ text, encode .alphabetical { name := some "a<\t&", details := none } = .ok text := by
  have hversion : Xml.declaredVersion? spelledReply ≠ some .v11 := by
    rw [Xml.declaredVersion?, spelledReply,
      Xml.declared?_encode (by decide +kernel) (by decide +kernel)]
    decide
  have hparse : Element.parse? spelledReply = some (Xml.bareElement "Envelope"
      [(Xml.bareElement "Body" [(Xml.bareElement responseName [(Xml.bareElement resultName
        [(Xml.bareElement "name" [.text "a<\t", .cdata "&"]).node]).node]).node]).node]) :=
    Xml.parse?_of_plainRoot? (by decide +kernel) (by decide +kernel) (by decide +kernel)
  have hdecode : decode spelledReply = .ok { name := some "a<\t&", details := none } := by
    rw [decode, hparse]
    rfl
  exact ⟨hversion, hdecode, exists_encode_of_decode .alphabetical hversion hdecode⟩

end PanelRelay.Envelope
