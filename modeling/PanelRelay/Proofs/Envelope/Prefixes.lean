import PanelRelay.Envelope.Reply
import PanelRelay.Proofs.Xml.Document
import PanelRelay.Proofs.Xml.Plain
import PanelRelay.Proofs.Xml.Prefixes

/-!
Replies in which other prefixes are used, or none. A reply is decoded as what it is without any, part
by part, so that two replies that are the same without prefixes are decoded alike.
-/

namespace PanelRelay.Envelope

open Event (Detail Message)
open Xml (Attribute Element Name Node Tag)

section Parts

variable (element : Element)

theorem isNil_unprefixed : isNil element.unprefixed = isNil element := by
  rw [isNil, isNil, Element.unprefixed, Xml.Tag.nil_unprefixed]

theorem nillable?_unprefixed : nillable? element.unprefixed = nillable? element := by
  rw [nillable?, nillable?, isNil_unprefixed, Element.text_unprefixed]

theorem bind_nillable?_unprefixed (name : String) :
    (element.unprefixed.child? name).bind nillable? = (element.child? name).bind nillable? := by
  rw [Element.child?_unprefixed, Option.bind_map]
  exact congrArg (Option.bind _) (funext nillable?_unprefixed)

theorem decodeValue_unprefixed : decodeValue element.unprefixed = decodeValue element := by
  rw [decodeValue, decodeValue, Element.text_unprefixed, Element.unprefixed,
    Xml.Tag.type_unprefixed]

theorem decodeIndex_unprefixed : decodeIndex element.unprefixed = decodeIndex element := by
  rw [decodeIndex, decodeIndex, bind_nillable?_unprefixed]

theorem decodeOptionalValue_unprefixed :
    decodeOptionalValue element.unprefixed = decodeOptionalValue element := by
  rw [decodeOptionalValue, decodeOptionalValue, Element.child?_unprefixed]
  cases element.child? "value" with
  | none => rfl
  | some child => simp only [Option.map_some, isNil_unprefixed, decodeValue_unprefixed]

theorem decodeDetail_unprefixed : decodeDetail element.unprefixed = decodeDetail element := by
  rw [decodeDetail, decodeDetail, decodeIndex_unprefixed, decodeOptionalValue_unprefixed,
    bind_nillable?_unprefixed]

theorem decodeDetails_unprefixed : decodeDetails element.unprefixed = decodeDetails element := by
  rw [decodeDetails, decodeDetails, Element.elements_unprefixed, List.filter_map, List.mapM_map]
  exact congrArg (List.mapM · _) (funext decodeDetail_unprefixed)

theorem decodeOptionalDetails_unprefixed :
    decodeOptionalDetails element.unprefixed = decodeOptionalDetails element := by
  rw [decodeOptionalDetails, decodeOptionalDetails, Element.child?_unprefixed]
  cases element.child? "Properties" with
  | none => rfl
  | some child => simp only [Option.map_some, isNil_unprefixed, decodeDetails_unprefixed]

theorem decodeMessage_unprefixed : decodeMessage element.unprefixed = decodeMessage element := by
  rw [decodeMessage, decodeMessage, decodeOptionalDetails_unprefixed, bind_nillable?_unprefixed]

theorem faultText_unprefixed (name : String) :
    faultText element.unprefixed name = faultText element name := by
  rw [faultText, faultText, Element.child?_unprefixed]
  cases element.child? name with
  | none => rfl
  | some child => simp only [Option.map_some, Option.elim_some, Element.text_unprefixed]

theorem decodeContent_unprefixed : decodeContent element.unprefixed = decodeContent element := by
  simp only [decodeContent, faultOf, faultText_unprefixed, Element.name_unprefixed,
    Element.child?_unprefixed]
  cases element.child? resultName with
  | none => rfl
  | some result => simp only [Option.map_some, decodeMessage_unprefixed]

/-- Decoding forgets all prefixes. -/
theorem decodeEnvelope_unprefixed :
    decodeEnvelope element.unprefixed = decodeEnvelope element := by
  rw [decodeEnvelope, decodeEnvelope, Element.name_unprefixed, Element.child?_unprefixed]
  cases element.child? "Body" with
  | none => rfl
  | some body =>
      simp only [Option.map_some, Element.elements_unprefixed]
      cases body.elements with
      | nil => rfl
      | cons content rest => simp only [List.map_cons, decodeContent_unprefixed]

end Parts

theorem decode_eq_of_parse? {octets : List UInt8} {root : Element}
    (h : Element.parse? octets = some root) : decode octets = decodeEnvelope root := by
  rw [decode, h]

/--
Two replies that differ in prefixes only are decoded alike: any two documents without a document type
declaration, whose prefixes are bound, and any others as far as they are parsed.
-/
theorem decode_eq_of_unprefixed_eq {octets octets' : List UInt8} {root root' : Element}
    (h : root.unprefixed = root'.unprefixed) :
    (Xml.IsWritten octets root → Xml.IsWritten octets' root' →
      decode octets = decodeEnvelope root ∧ decode octets' = decode octets) ∧
    (Element.parse? octets = some root → Element.parse? octets' = some root' →
      decode octets' = decode octets) := by
  have hparsed : Element.parse? octets = some root → Element.parse? octets' = some root' →
      decode octets' = decode octets := by
    intro hroot hroot'
    rw [decode_eq_of_parse? hroot, decode_eq_of_parse? hroot', ← decodeEnvelope_unprefixed root,
      ← decodeEnvelope_unprefixed root', h]
  refine ⟨fun hwritten hwritten' => ?_, hparsed⟩
  have hroot := hwritten.parse?
  exact ⟨decode_eq_of_parse? hroot, hparsed hroot hwritten'.parse?⟩

/-- A property whose value has a type, and a nil name; the arguments tell how names are written. -/
def namedReply (name item : String → Name) (bindings : List Attribute) (type : String) : Element where
  tag := { name := name "Envelope", attributes := bindings }
  children := [.element { name := name "Body" } [.element { name := name responseName }
    [.element { name := name resultName } [
      .element { name := name "Properties" } [.element { name := name propertyName } [
        .element { name := name "index" } [.text "1"],
        .element { name := name "value", attributes := [{ name := item "type", value := type }] }
          [.text "5"]]],
      .element { name := name "name", attributes := [{ name := item "nil", value := "true" }] } []]]]]

def qualifiedReply : Element :=
  namedReply (.qualified "s") (.qualified "i")
    [{ name := .qualified "xmlns" "s", value := "e" },
      { name := .qualified "xmlns" "i", value := "x" }] "x:int"

def defaultReply : Element :=
  namedReply .plain (.qualified "j")
    [{ name := .plain "xmlns", value := "e" },
      { name := .qualified "xmlns" "j", value := "x" }] "int"

theorem regular_namedReply {name item : String → Name} {bindings : List Attribute} {type : String}
    (henvelope : Tag.IsValid { name := name "Envelope", attributes := bindings })
    (hnames : ∀ base ∈ ["Body", responseName, resultName, "Properties", propertyName, "index"],
      Tag.IsValid { name := name base })
    (hvalue : Tag.IsValid
      { name := name "value", attributes := [{ name := item "type", value := type }] })
    (hname : Tag.IsValid
      { name := name "name", attributes := [{ name := item "nil", value := "true" }] }) :
    (namedReply name item bindings type).node.Regular Tag.IsValid := by
  simp only [List.forall_mem_cons] at hnames
  obtain ⟨hbody, hresponse, hresult, hproperties, hproperty, hindex, -⟩ := hnames
  have hdetail : Node.Regular Tag.IsValid (.element { name := name propertyName } [
      .element { name := name "index" } [.text "1"],
      .element { name := name "value", attributes := [{ name := item "type", value := type }] }
        [.text "5"]]) :=
    .branch hproperty (List.forall_mem_cons.mpr ⟨.leaf hindex (by decide),
      List.forall_mem_singleton.mpr (.leaf hvalue (by decide))⟩)
  have hnil : Node.Regular Tag.IsValid (.element
      { name := name "name", attributes := [{ name := item "nil", value := "true" }] } []) :=
    .branch hname (List.forall_mem_nil _)
  have hparts := Node.Regular.branch hresult (List.forall_mem_cons.mpr
    ⟨.branch hproperties (List.forall_mem_singleton.mpr hdetail),
      List.forall_mem_singleton.mpr hnil⟩)
  exact .branch henvelope (List.forall_mem_singleton.mpr (.branch hbody
    (List.forall_mem_singleton.mpr (.branch hresponse (List.forall_mem_singleton.mpr hparts)))))

theorem isWritten_qualifiedReply :
    Xml.IsWritten (Utf8.encode qualifiedReply.node.document) qualifiedReply := by
  refine Element.isWritten_document (regular_namedReply ?_ ?_ ?_ ?_) rfl ?_ <;> decide +kernel

theorem isWritten_defaultReply :
    Xml.IsWritten (Utf8.encode defaultReply.node.document) defaultReply := by
  refine Element.isWritten_document (regular_namedReply ?_ ?_ ?_ ?_) rfl ?_ <;> decide +kernel

/-- A default namespace instead of a prefix, another prefix on attributes, and none on the type. -/
theorem decode_defaultReply :
    qualifiedReply.unprefixed = defaultReply.unprefixed ∧
      decode (Utf8.encode defaultReply.node.document) =
        .ok { name := none, details := some [{ id := none, index := 1, value := some (.integer 5) }] } := by
  have hsame : qualifiedReply.unprefixed = defaultReply.unprefixed := by decide +kernel
  obtain ⟨hdecode, hagree⟩ :=
    (decode_eq_of_unprefixed_eq hsame).1 isWritten_qualifiedReply isWritten_defaultReply
  refine ⟨hsame, hagree.trans (hdecode.trans ?_)⟩
  rfl

end PanelRelay.Envelope
