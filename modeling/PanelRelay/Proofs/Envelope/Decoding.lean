import PanelRelay.Envelope.Reply
import PanelRelay.Proofs.Envelope.Distinctness
import PanelRelay.Proofs.Xml.Document

/-!
Trees that are decoded. The message is read back from the tree of a response, part by part, in the
way in which the tree is built of it.
-/

namespace PanelRelay.Envelope

open Event (Detail Message)
open Xml (Element Node Tag)

def textElement (name : String) : Option String → Element
  | none => { tag := nilTag name, children := [] }
  | some text => { tag := plainTag name, children := textNodes text }

def valueElement : Option Property.Value → Element
  | none => { tag := nilTag "value", children := [] }
  | some value =>
      { tag := typedTag "value" (spelled value).1, children := textNodes (spelled value).2 }

def propertyElements (detail : Detail) : List Element :=
  [textElement "id" detail.id, textElement "index" (some (integerText detail.index)),
    valueElement detail.value]

def propertyElement (detail : Detail) : Element where
  tag := propertyTag
  children := (propertyElements detail).map Element.node

def propertiesElement : Option (List Detail) → Element
  | none => { tag := nilTag "Properties", children := [] }
  | some details =>
      { tag := plainTag "Properties", children := (details.map propertyElement).map Element.node }

def messageElements (message : Message) : List Element :=
  [propertiesElement message.details, textElement "name" message.name]

theorem textTree_eq (name : String) (text : Option String) :
    textTree name text = (textElement name text).node := by
  cases text <;> rfl

theorem valueTree_eq (value : Option Property.Value) :
    valueTree value = (valueElement value).node := by
  cases value with
  | none => rfl
  | some value => exact valueTree_some value

theorem propertyTree_eq (detail : Detail) : propertyTree detail = (propertyElement detail).node := by
  rw [propertyTree, textTree_eq, textTree_eq, valueTree_eq]
  rfl

theorem propertiesTree_eq (details : Option (List Detail)) :
    propertiesTree details = (propertiesElement details).node := by
  cases details with
  | none => rfl
  | some details =>
      rw [propertiesTree, propertiesElement, List.map_map]
      exact congrArg _ (List.map_congr_left fun detail _ => propertyTree_eq detail)

theorem messageParts_eq (message : Message) :
    messageParts message = (messageElements message).map Element.node := by
  rw [messageParts, propertiesTree_eq, textTree_eq]
  rfl

theorem elements_map_node (tag : Tag) (elements : List Element) :
    Element.elements { tag, children := elements.map Element.node } = elements := by
  simp [Element.elements, Function.comp_def]

theorem child?_map_node (tag : Tag) (elements : List Element) (name : String) :
    Element.child? { tag, children := elements.map Element.node } name =
      elements.find? fun child => child.name = name := by
  rw [Element.child?, elements_map_node]

theorem text_textNodes (tag : Tag) (text : String) :
    Element.text { tag, children := textNodes text } = text := by
  by_cases hempty : text = ""
  · subst hempty
    rfl
  · simp [Element.text, textNodes, hempty, Node.ownText]

theorem name_textElement (name : String) (text : Option String) :
    (textElement name text).name = name := by
  cases text <;> rfl

theorem name_valueElement (value : Option Property.Value) : (valueElement value).name = "value" := by
  cases value <;> rfl

theorem name_propertiesElement (details : Option (List Detail)) :
    (propertiesElement details).name = "Properties" := by
  cases details <;> rfl

theorem isNil_nilTag (name : String) (children : List Node) :
    isNil { tag := nilTag name, children } = true := rfl

theorem isNil_plainTag (name : String) (children : List Node) :
    isNil { tag := plainTag name, children } = false := rfl

theorem values_typedTag (name type : String) :
    (typedTag name type).values = [("type", type)] := rfl

theorem isNil_typedTag (name type : String) (children : List Node) :
    isNil { tag := typedTag name type, children } = false := by
  have hname : ("type" = "nil" || Xml.afterColon "type" = "nil") = false := by decide
  have hvalue : (typedTag name type).value? "nil" = none := by
    rw [Tag.value?, values_typedTag, List.find?_cons_of_neg (by rw [hname]; decide)]
    rfl
  rw [isNil, hvalue]
  rfl

theorem value?_typedTag (name type : String) : (typedTag name type).value? "type" = some type := rfl

theorem nillable?_textElement (name : String) (text : Option String) :
    nillable? (textElement name text) = text := by
  cases text with
  | none => rw [nillable?, textElement, isNil_nilTag, if_pos rfl]
  | some text =>
      rw [nillable?, textElement, isNil_plainTag, if_neg Bool.false_ne_true, text_textNodes]

theorem integer?_integerText (element : String) (n : Int32) :
    integer? element (integerText n) = .ok n := by
  have htrim := trim_eq_self fun c (hc : c ∈ Decimal.ofInt n.toInt) =>
    Decimal.isGraphic_of_mem_ofInt hc
  simp only [integer?, integerText, String.toList_ofList, htrim, Decimal.int32?_ofInt]

theorem octets?_octetsText (element : String) (octets : List UInt8) :
    octets? element (octetsText octets) = .ok octets := by
  have htrim := trim_eq_self fun c (hc : c ∈ Base64.encode octets) =>
    Base64.isGraphic_of_mem_encode hc
  simp only [octets?, octetsText, String.toList_ofList, htrim, Base64.decode?_encode]

theorem decodeValue_valueElement (value : Property.Value) :
    decodeValue (valueElement (some value)) = .ok value := by
  have htype := value?_typedTag "value" (spelled value).1
  rw [decodeValue, valueElement, htype, text_textNodes]
  cases value with
  | text content =>
      have hlabel : Xml.afterColon "xsd:string" = "string" := by decide
      simp only [spelled, Option.map_some, hlabel, if_true]
  | integer content =>
      have hlabel : Xml.afterColon "xsd:int" = "int" := by decide
      simp only [spelled, Option.map_some, hlabel]
      rw [if_neg (by decide), if_pos trivial, integer?_integerText]
      rfl
  | bytes content =>
      have hlabel : Xml.afterColon "xsd:base64Binary" = "base64Binary" := by decide
      simp only [spelled, Option.map_some, hlabel]
      rw [if_neg (by decide), if_neg (by decide), if_pos trivial, octets?_octetsText]
      rfl

theorem isNil_valueElement (value : Property.Value) :
    isNil (valueElement (some value)) = false :=
  isNil_typedTag "value" (spelled value).1 _

theorem child?_propertyElement (detail : Detail) :
    (propertyElement detail).child? "id" = some (textElement "id" detail.id) ∧
      (propertyElement detail).child? "index" =
        some (textElement "index" (some (integerText detail.index))) ∧
      (propertyElement detail).child? "value" = some (valueElement detail.value) := by
  simp only [propertyElement, child?_map_node]
  simp [propertyElements, name_textElement, name_valueElement]

theorem decodeDetail_propertyElement (detail : Detail) :
    decodeDetail (propertyElement detail) = .ok detail := by
  obtain ⟨hid, hindex, hvalue⟩ := child?_propertyElement detail
  have hreadIndex : decodeIndex (propertyElement detail) = .ok detail.index := by
    rw [decodeIndex, hindex, Option.bind_some, nillable?_textElement]
    exact integer?_integerText "index" detail.index
  have hreadValue : decodeOptionalValue (propertyElement detail) = .ok detail.value := by
    rw [decodeOptionalValue, hvalue]
    cases detail.value with
    | none => rfl
    | some value =>
        simp only [isNil_valueElement, Bool.false_eq_true, if_false, decodeValue_valueElement]
        rfl
  rw [decodeDetail, hreadIndex, hreadValue, hid, Option.bind_some, nillable?_textElement]
  rfl

theorem mapM_decodeDetail (details : List Detail) :
    (details.map propertyElement).mapM decodeDetail = .ok details := by
  induction details with
  | nil => rfl
  | cons detail details ih =>
      rw [List.map_cons, List.mapM_cons, decodeDetail_propertyElement, ih]
      rfl

theorem decodeDetails_propertiesElement (details : List Detail) :
    decodeDetails (propertiesElement (some details)) = .ok details := by
  have hnames : (details.map propertyElement).filter (fun child => child.name = propertyName) =
      details.map propertyElement := by
    rw [List.filter_eq_self]
    intro child hchild
    obtain ⟨detail, -, rfl⟩ := List.mem_map.mp hchild
    rfl
  rw [decodeDetails, propertiesElement, elements_map_node, hnames, mapM_decodeDetail]

theorem decodeMessage_messageElements (tag : Tag) (message : Message) :
    decodeMessage { tag, children := (messageElements message).map Element.node } =
      .ok message := by
  have hproperties : Element.child?
      { tag, children := (messageElements message).map Element.node } "Properties" =
        some (propertiesElement message.details) := by
    rw [child?_map_node]
    simp [messageElements, name_propertiesElement]
  have hname : Element.child? { tag, children := (messageElements message).map Element.node }
      "name" = some (textElement "name" message.name) := by
    rw [child?_map_node]
    simp [messageElements, name_propertiesElement, name_textElement]
  have hdetails : decodeOptionalDetails
      { tag, children := (messageElements message).map Element.node } = .ok message.details := by
    rw [decodeOptionalDetails, hproperties]
    cases message.details with
    | none => rfl
    | some details =>
        have hnil : isNil (propertiesElement (some details)) = false := isNil_plainTag _ _
        simp only [hnil, Bool.false_eq_true, if_false, decodeDetails_propertiesElement]
        rfl
  rw [decodeMessage, hdetails, hname, Option.bind_some, nillable?_textElement]
  rfl

/-- The tree of a response holds the message, however blank its texts are. -/
theorem decodeEnvelope_envelopeAround {order : DeclarationOrder} {operation part : Tag}
    {message : Message} {root : Element}
    (hoperation : operation.name.base = responseName) (hpart : part.name.base = resultName)
    (hroot : envelopeAround order operation part message = root.node) :
    decodeEnvelope root = .ok message := by
  let result : Element := { tag := part, children := (messageElements message).map Element.node }
  let content : Element := { tag := operation, children := [result].map Element.node }
  let body : Element := { tag := bodyTag, children := [content].map Element.node }
  have hparts : envelopeAround order operation part message =
      Element.node { tag := envelopeTag order, children := [body].map Element.node } := by
    rw [envelopeAround, messageParts_eq]
    rfl
  obtain rfl : root = { tag := envelopeTag order, children := [body].map Element.node } :=
    Option.some.inj (congrArg Node.element? (hroot.symm.trans hparts))
  have hbody : Element.child?
      { tag := envelopeTag order, children := [body].map Element.node } "Body" = some body := by
    rw [child?_map_node]
    rfl
  have hcontent : body.elements = [content] := elements_map_node bodyTag [content]
  have hresult : content.child? resultName = some result := by
    rw [child?_map_node]
    exact List.find?_cons_of_pos (decide_eq_true hpart)
  have hname : content.name = responseName := hoperation
  have hroot : Element.name { tag := envelopeTag order, children := [body].map Element.node } =
      "Envelope" := rfl
  rw [decodeEnvelope, if_pos hroot, hbody]
  simp only [hcontent]
  rw [decodeContent, hname, if_neg (by decide), if_pos rfl, hresult]
  exact decodeMessage_messageElements part message

end PanelRelay.Envelope
