import PanelRelay.Proofs.Envelope.Acceptance
import PanelRelay.Proofs.Envelope.Shape

/-!
Different messages have different requests. The tree of a request tells the message, and the text of
a request tells the tree.
-/

namespace PanelRelay.Envelope

open Event (Detail Message)
open Xml (Node Tag)

theorem textNodes_inj {text other : String} (h : textNodes text = textNodes other) :
    text = other := by
  unfold textNodes at h
  split at h
  next hempty =>
    split at h
    next hother => rw [hempty, hother]
    next => cases h
  next =>
    split at h
    next => cases h
    next => simpa using h

theorem textTree_inj {name : String} {text other : Option String}
    (h : textTree name text = textTree name other) : text = other := by
  cases text with
  | none =>
      cases other with
      | none => rfl
      | some other => simp [textTree, nilTag, plainTag] at h
  | some text =>
      cases other with
      | none => simp [textTree, nilTag, plainTag] at h
      | some other => exact congrArg some (textNodes_inj (Node.element.inj h).2)

theorem typedNode_inj {type otherType text other : String}
    (h : typedNode type text = typedNode otherType other) : type = otherType ∧ text = other := by
  obtain ⟨htag, hnodes⟩ := Node.element.inj h
  exact ⟨by simpa [typedTag] using htag, textNodes_inj hnodes⟩

theorem integerText_inj {n m : Int32} (h : integerText n = integerText m) : n = m := by
  have hread := Decimal.int32?_ofInt n
  rw [String.ofList_inj.mp h, Decimal.int32?_ofInt m] at hread
  exact (Option.some.inj hread).symm

theorem octetsText_inj {octets other : List UInt8} (h : octetsText octets = octetsText other) :
    octets = other := by
  have hread := Base64.decode?_encode octets
  rw [String.ofList_inj.mp h, Base64.decode?_encode other] at hread
  exact (Option.some.inj hread).symm

theorem typedNode_ne_nil (type text : String) :
    typedNode type text ≠ .element (nilTag "value") [] := by
  intro h
  obtain ⟨htag, -⟩ := Node.element.inj h
  have hname : typeName = nilName := (Xml.Attribute.mk.inj (List.cons.inj (Tag.mk.inj htag).2).1).1
  exact absurd hname (by decide)

/-- The type under which a value is written, and its text. -/
def spelled : Property.Value → String × String
  | .text content => ("xsd:string", content)
  | .integer content => ("xsd:int", integerText content)
  | .bytes content => ("xsd:base64Binary", octetsText content)

theorem valueTree_some (value : Property.Value) :
    valueTree (some value) = typedNode (spelled value).1 (spelled value).2 := by
  cases value <;> rfl

theorem spelled_inj {value other : Property.Value} (h : spelled value = spelled other) :
    value = other := by
  obtain ⟨-, htext⟩ := Prod.mk.inj h
  cases value with
  | text content =>
      cases other with
      | text otherContent => exact congrArg _ htext
      | integer otherContent => simp [spelled] at h
      | bytes otherContent => simp [spelled] at h
  | integer content =>
      cases other with
      | text otherContent => simp [spelled] at h
      | integer otherContent => exact congrArg _ (integerText_inj htext)
      | bytes otherContent => simp [spelled] at h
  | bytes content =>
      cases other with
      | text otherContent => simp [spelled] at h
      | integer otherContent => simp [spelled] at h
      | bytes otherContent => exact congrArg _ (octetsText_inj htext)

theorem valueTree_inj {value other : Option Property.Value}
    (h : valueTree value = valueTree other) : value = other := by
  cases value with
  | none =>
      cases other with
      | none => rfl
      | some other =>
          rw [valueTree_some] at h
          exact absurd h.symm (typedNode_ne_nil _ _)
  | some value =>
      rw [valueTree_some] at h
      cases other with
      | none => exact absurd h (typedNode_ne_nil _ _)
      | some other =>
          rw [valueTree_some] at h
          obtain ⟨htype, htext⟩ := typedNode_inj h
          exact congrArg some (spelled_inj (Prod.ext htype htext))

theorem propertyTree_inj {detail other : Detail} (h : propertyTree detail = propertyTree other) :
    detail = other := by
  obtain ⟨id, index, value⟩ := detail
  obtain ⟨otherId, otherIndex, otherValue⟩ := other
  obtain ⟨-, hchildren⟩ := Node.element.inj h
  obtain ⟨hid, hchildren⟩ := List.cons.inj hchildren
  obtain ⟨hindex, hchildren⟩ := List.cons.inj hchildren
  obtain ⟨hvalue, -⟩ := List.cons.inj hchildren
  have hid : id = otherId := textTree_inj hid
  have hindex : index = otherIndex := integerText_inj (Option.some.inj (textTree_inj hindex))
  have hvalue : value = otherValue := valueTree_inj hvalue
  rw [hid, hindex, hvalue]

theorem propertiesTree_inj {details others : Option (List Detail)}
    (h : propertiesTree details = propertiesTree others) : details = others := by
  cases details with
  | none =>
      cases others with
      | none => rfl
      | some others => simp [propertiesTree, nilTag, plainTag] at h
  | some details =>
      cases others with
      | none => simp [propertiesTree, nilTag, plainTag] at h
      | some others =>
          obtain ⟨-, hnodes⟩ := Node.element.inj h
          exact congrArg some ((List.map_inj_right fun _ _ => propertyTree_inj).mp hnodes)

theorem messageParts_inj {message other : Message}
    (h : messageParts message = messageParts other) : message = other := by
  obtain ⟨name, details⟩ := message
  obtain ⟨otherName, otherDetails⟩ := other
  obtain ⟨hdetails, hparts⟩ := List.cons.inj h
  obtain ⟨hname, -⟩ := List.cons.inj hparts
  have hdetails : details = otherDetails := propertiesTree_inj hdetails
  have hname : name = otherName := textTree_inj hname
  rw [hdetails, hname]

theorem envelopeAround_inj {order order' : DeclarationOrder} {operation part : Tag}
    {message other : Message}
    (h : envelopeAround order operation part message = envelopeAround order' operation part other) :
    message = other := by
  obtain ⟨-, hbody⟩ := Node.element.inj h
  obtain ⟨-, houter⟩ := Node.element.inj (List.cons.inj hbody).1
  obtain ⟨-, hinner⟩ := Node.element.inj (List.cons.inj houter).1
  obtain ⟨-, hparts⟩ := Node.element.inj (List.cons.inj hinner).1
  exact messageParts_inj hparts

theorem document_inj {tree other : Node} (htree : tree.Regular Tag.IsValid)
    (hother : other.Regular Tag.IsValid) (h : tree.document = other.document) : tree = other := by
  have hprint := List.append_cancel_left (String.ofList_inj.mp h)
  have hends : tree.print 0 ++ [] = other.print 0 ++ [] := congrArg (· ++ []) hprint
  exact (htree.print_append_inj hother hends).1

theorem regular_requestTree {order : DeclarationOrder} {message : Message} {text : String}
    (h : encode order message = .ok text) :
    (requestTree order message).Regular Tag.IsValid ∧
      (requestTree order message).document = text := by
  obtain ⟨hcarried, htext⟩ := (encode_eq_ok_iff_isCarried order message text).mp h
  have hpart : (plainTag partName).IsValid := by decide
  have hoperation : operationTag.IsValid := by decide
  exact ⟨regular_envelopeAround order hoperation hpart hcarried, htext⟩

/-- One request is the request of one message, whatever its texts look like. -/
theorem encode_injective {order order' : DeclarationOrder} {message other : Message} {text : String}
    (hmessage : encode order message = .ok text) (hother : encode order' other = .ok text) :
    message = other := by
  obtain ⟨hregular, htext⟩ := regular_requestTree hmessage
  obtain ⟨hregularOther, htextOther⟩ := regular_requestTree hother
  exact envelopeAround_inj (document_inj hregular hregularOther (htext.trans htextOther.symm))

/-- A message whose texts imitate markup, or are blank or empty. -/
def markupMessage : Message where
  name := some "</name><name xsi:nil=\"true\" />"
  details := some [
    { id := some " ", index := -1, value := some (.text "<value xsi:type=\"xsd:int\">1</value>") },
    { id := none, index := 2, value := some (.bytes []) }]

theorem encode_injective_markupMessage :
    ∃ text, encode .alphabetical markupMessage = .ok text ∧
      { Message.named "</name><name xsi:nil=\"true\" />" with
        details := markupMessage.details } = markupMessage := by
  have hcarried : ∀ item ∈ messageTexts markupMessage, isCarried item.2 = true := by decide
  have hsent : encode .alphabetical markupMessage =
      .ok (requestTree .alphabetical markupMessage).document :=
    (encode_eq_ok_iff_isCarried _ _ _).mpr ⟨hcarried, rfl⟩
  have hother : encode .alphabetical { Message.named "</name><name xsi:nil=\"true\" />" with
      details := markupMessage.details } = .ok (requestTree .alphabetical markupMessage).document :=
    (encode_eq_ok_iff_isCarried _ _ _).mpr ⟨hcarried, rfl⟩
  exact ⟨_, hsent, encode_injective hother hsent⟩

end PanelRelay.Envelope
