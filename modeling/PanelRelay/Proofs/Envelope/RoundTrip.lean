import PanelRelay.Proofs.Envelope.Decoding
import PanelRelay.Proofs.Envelope.Renaming
import PanelRelay.Proofs.Envelope.Texts

/-!
Requests that are sent back and decoded. The layout of the document is lost together with the texts
that look like layout; all else comes back as it was.
-/

namespace PanelRelay.Envelope

open Event (Detail Message)
open Xml (Node Tag boundEverywhere)

theorem withoutLayout_textNodes (text : String) :
    Xml.withoutLayout (textNodes text) = textNodes (clearText isBlank text) := by
  by_cases hempty : text = ""
  · subst hempty
    rfl
  · rw [textNodes, if_neg hempty, Xml.withoutLayout_text, clearText]
    by_cases hblank : text.toList.all isBlank = true
    · rw [if_pos hblank, if_pos hblank]
      rfl
    · rw [if_neg hblank, if_neg hblank, textNodes, if_neg hempty]

theorem withoutLayout_textTree (name : String) (text : Option String) :
    (textTree name text).withoutLayout = textTree name (text.map (clearText isBlank)) := by
  cases text with
  | none => rfl
  | some text =>
      rw [textTree, Node.withoutLayout_element, withoutLayout_textNodes]
      rfl

theorem withoutLayout_typedNode (type text : String) :
    (typedNode type text).withoutLayout = typedNode type (clearText isBlank text) := by
  rw [typedNode, Node.withoutLayout_element, withoutLayout_textNodes]
  rfl

theorem clearText_integerText (n : Int32) :
    clearText isBlank (integerText n) = integerText n :=
  clearText_of_isGraphic fun _ => Decimal.isGraphic_of_mem_ofInt

theorem clearText_octetsText (octets : List UInt8) :
    clearText isBlank (octetsText octets) = octetsText octets :=
  clearText_of_isGraphic fun _ => Base64.isGraphic_of_mem_encode

theorem withoutLayout_valueTree (value : Option Property.Value) :
    (valueTree value).withoutLayout =
      valueTree (value.map (Property.Value.mapText (clearText isBlank))) := by
  cases value with
  | none => rfl
  | some value =>
      cases value with
      | text content => exact withoutLayout_typedNode "xsd:string" content
      | integer content =>
          rw [valueTree, withoutLayout_typedNode, clearText_integerText]
          rfl
      | bytes content =>
          rw [valueTree, withoutLayout_typedNode, clearText_octetsText]
          rfl

theorem withoutLayout_propertyTree (detail : Detail) :
    (propertyTree detail).withoutLayout =
      propertyTree (detail.mapTexts (clearText isBlank)) := by
  have hindex := withoutLayout_textTree "index" (some (integerText detail.index))
  rw [Option.map_some, clearText_integerText] at hindex
  rw [propertyTree, Node.withoutLayout_element, Xml.withoutLayout_elements]
  · simp only [List.map_cons, List.map_nil, withoutLayout_textTree "id", hindex,
      withoutLayout_valueTree]
    rfl
  · simp [isElement_textTree, isElement_valueTree]

theorem withoutLayout_propertiesTree (details : Option (List Detail)) :
    (propertiesTree details).withoutLayout = propertiesTree
      (details.map fun details => details.map (Detail.mapTexts (clearText isBlank))) := by
  cases details with
  | none => rfl
  | some details =>
      rw [propertiesTree, Node.withoutLayout_element, Xml.withoutLayout_elements]
      · rw [List.map_map, Option.map_some, propertiesTree, List.map_map]
        exact congrArg _ (List.map_congr_left fun detail _ => withoutLayout_propertyTree detail)
      · intro node hnode
        obtain ⟨detail, -, rfl⟩ := List.mem_map.mp hnode
        rfl

theorem isElement_of_mem_messageParts {message : Message} :
    ∀ node ∈ messageParts message, node.isElement = true := by
  rw [messageParts_eq]
  intro node hnode
  obtain ⟨element, -, rfl⟩ := List.mem_map.mp hnode
  rfl

theorem withoutLayout_messageParts (message : Message) :
    (messageParts message).map Node.withoutLayout =
      messageParts (message.mapTexts (clearText isBlank)) := by
  simp only [messageParts, List.map_cons, List.map_nil, withoutLayout_propertiesTree,
    withoutLayout_textTree]
  rfl

/-- Without its layout an envelope is the one of the message without its blank texts. -/
theorem withoutLayout_envelopeAround (order : DeclarationOrder) (operation part : Tag)
    (message : Message) :
    (envelopeAround order operation part message).withoutLayout =
      envelopeAround order operation part (message.mapTexts (clearText isBlank)) := by
  have hparts : (Node.element part (messageParts message)).withoutLayout =
      .element part (messageParts (message.mapTexts (clearText isBlank))) := by
    rw [Node.withoutLayout_element, Xml.withoutLayout_elements isElement_of_mem_messageParts,
      withoutLayout_messageParts]
  have haround : ∀ (tag inner : Tag) (children : List Node),
      (Node.element tag [.element inner children]).withoutLayout =
        .element tag [(Node.element inner children).withoutLayout] := fun _ _ _ => rfl
  rw [envelopeAround, envelopeNode, haround, haround, haround, hparts]
  rfl

theorem isBound_envelopeAround (order : DeclarationOrder) {message : Message}
    (hparts : ∀ node ∈ messageParts message, node.Regular (· ∈ partTags)) :
    (envelopeAround order responseTag resultTag message).isBound boundEverywhere = true := by
  have hpartTags : ∀ tag ∈ partTags, tag.isBound ["xsi"] = true := by decide
  have houterTags : ∀ attributes ∈ declarations.permutations',
      let envelope : Tag := { name := .qualified "soap" "Envelope", attributes }
      let scope := envelope.bound boundEverywhere
      envelope.isBound boundEverywhere = true ∧ bodyTag.isBound scope = true ∧
        responseTag.isBound (bodyTag.bound scope) = true ∧
        resultTag.isBound (responseTag.bound (bodyTag.bound scope)) = true ∧
        ["xsi"] ⊆ resultTag.bound (responseTag.bound (bodyTag.bound scope)) := by
    decide
  have hsingle := @List.forall_mem_singleton Node
  obtain ⟨henvelope, hbody, hresponse, hresult, hscope⟩ :=
    houterTags order.attributes order.mem_permutations
  refine Node.isBound_element henvelope (hsingle.mpr ?_)
  refine Node.isBound_element hbody (hsingle.mpr ?_)
  refine Node.isBound_element hresponse (hsingle.mpr ?_)
  refine Node.isBound_element hresult fun node hnode => ?_
  exact (hparts node hnode).isBound hpartTags hscope

/-- A message comes back without its blank texts. -/
theorem decode_echo {order : DeclarationOrder} {message : Message} {text : String}
    (hencode : encode order message = .ok text) :
    decode (Utf8.encode (echo text)) = .ok (message.mapTexts (clearText isBlank)) := by
  obtain ⟨hcarried, rfl⟩ := (encode_eq_ok_iff_isCarried order message text).mp hencode
  have hresponse : responseTag.IsValid := by decide
  have hresult : resultTag.IsValid := by decide
  have hregular := regular_envelopeAround order hresponse hresult hcarried
  have hparts : ∀ node ∈ messageParts (message.mapTexts (clearText isBlank)),
      node.Regular (· ∈ partTags) := by
    rw [← withoutLayout_messageParts]
    exact List.forall_mem_map.mpr fun node hnode =>
      (regular_messageParts hcarried node hnode).withoutLayout
  -- What is parsed, and has to be bound, is the tree that is left without layout.
  have hbound := isBound_envelopeAround order hparts
  rw [← withoutLayout_envelopeAround] at hbound
  obtain ⟨root, hroot, hparsed⟩ := hregular.parse?_document hbound
  rw [withoutLayout_envelopeAround] at hroot
  rw [echo_requestTree order hcarried, decode, hparsed]
  exact decodeEnvelope_envelopeAround rfl rfl hroot

/-- Space, tab and line feed. -/
def isSpacing (c : Char) : Bool :=
  c = ' ' || c = '\t' || c = '\n'

/-- The message with each text empty that consists of spaces, tabs and line feeds only. -/
def withoutSpacing (message : Message) : Message :=
  message.mapTexts (clearText isSpacing)

theorem isBlank_eq_isSpacing {c : Char} (hc : c ≠ '\r') : isBlank c = isSpacing c := by
  simp [isBlank, isSpacing, hc]

theorem clearText_isBlank {text : String} (htext : '\r' ∉ text.toList) :
    clearText isBlank text = clearText isSpacing text := by
  have hall : text.toList.all isBlank = text.toList.all isSpacing := by
    rw [Bool.eq_iff_iff, List.all_eq_true, List.all_eq_true]
    constructor
    · intro h c hc
      rw [← isBlank_eq_isSpacing fun heq => htext (heq ▸ hc)]
      exact h c hc
    · intro h c hc
      rw [isBlank_eq_isSpacing fun heq => htext (heq ▸ hc)]
      exact h c hc
  rw [clearText, clearText, hall]

/--
A message without carriage returns that is sent and comes back as a response is what it was but for
the texts of spaces, tabs and line feeds only, which come back empty.
-/
theorem decode_echo_encode {order : DeclarationOrder} {message : Message} {text : String}
    (hencode : encode order message = .ok text)
    (hreturns : ∀ item ∈ messageTexts message, '\r' ∉ item.2.toList) :
    decode (Utf8.encode (echo text)) = .ok (withoutSpacing message) ∧
      (decode (Utf8.encode (echo text)) = .ok message ↔
        ∀ item ∈ messageTexts message, item.2 ≠ "" → item.2.toList.all isSpacing = false) := by
  have hcleared : message.mapTexts (clearText isBlank) = withoutSpacing message :=
    message_mapTexts_congr fun item hitem => clearText_isBlank (hreturns item hitem)
  have hdecoded := decode_echo hencode
  rw [hcleared] at hdecoded
  refine ⟨hdecoded, ?_⟩
  rw [hdecoded, Except.ok.injEq, withoutSpacing, mapTexts_eq_self_iff]
  simp only [clearText_eq_self_iff]

/-- A message whose texts look like the tags that are renamed. -/
def imitatingMessage : Message where
  name := some "<logMessage xmlns"
  details := some [
    { id := some " \t", index := -1, value := some (.text "</logMessage>\n<message>") },
    { id := none, index := 2, value := some (.bytes []) }]

theorem decode_echo_encode_imitatingMessage :
    ∃ text, encode .alphabetical imitatingMessage = .ok text ∧
      decode (Utf8.encode (echo text)) = .ok { imitatingMessage with
        details := some [
          { id := some "", index := -1, value := some (.text "</logMessage>\n<message>") },
          { id := none, index := 2, value := some (.bytes []) }] } ∧
      decode (Utf8.encode (echo text)) ≠ .ok imitatingMessage := by
  have hcarried : ∀ item ∈ messageTexts imitatingMessage, isCarried item.2 = true := by decide
  have hreturns : ∀ item ∈ messageTexts imitatingMessage, '\r' ∉ item.2.toList := by decide
  have hspacing : ¬ ∀ item ∈ messageTexts imitatingMessage,
      item.2 ≠ "" → item.2.toList.all isSpacing = false := by decide
  have hsent : encode .alphabetical imitatingMessage =
      .ok (requestTree .alphabetical imitatingMessage).document :=
    (encode_eq_ok_iff_isCarried _ _ _).mpr ⟨hcarried, rfl⟩
  obtain ⟨hdecoded, hsame⟩ := decode_echo_encode hsent hreturns
  exact ⟨_, hsent, hdecoded, fun h => hspacing (hsame.mp h)⟩

end PanelRelay.Envelope
