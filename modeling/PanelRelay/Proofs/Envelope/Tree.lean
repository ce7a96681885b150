import PanelRelay.Envelope.Request
import PanelRelay.Proofs.Text.Spelling

/-!
The tree of a request, apart from the check of its texts: making it comes to the same as judging all
free texts of the message in one row and building the tree afterwards.
-/

namespace PanelRelay.Envelope

open Event (Detail Message)
open Xml (Node)

def textTree (name : String) : Option String → Node
  | none => .element (nilTag name) []
  | some text => .element (plainTag name) (textNodes text)

def valueTree : Option Property.Value → Node
  | none => .element (nilTag "value") []
  | some (.text content) => typedNode "xsd:string" content
  | some (.integer content) => typedNode "xsd:int" (integerText content)
  | some (.bytes content) => typedNode "xsd:base64Binary" (octetsText content)

def propertyTree (detail : Detail) : Node :=
  .element propertyTag [
    textTree "id" detail.id,
    textTree "index" (some (integerText detail.index)),
    valueTree detail.value]

def propertiesTree : Option (List Detail) → Node
  | none => .element (nilTag "Properties") []
  | some details => .element (plainTag "Properties") (details.map propertyTree)

def messageParts (message : Message) : List Node :=
  [propertiesTree message.details, textTree "name" message.name]

def messageTree (message : Message) : Node :=
  .element (plainTag partName) (messageParts message)

def requestTree (order : DeclarationOrder) (message : Message) : Node :=
  envelopeNode order (.element operationTag [messageTree message])

theorem isElement_textTree (name : String) (text : Option String) :
    (textTree name text).isElement = true := by
  cases text <;> rfl

theorem isElement_valueTree (value : Option Property.Value) :
    (valueTree value).isElement = true := by
  cases value with
  | none => rfl
  | some value => cases value <;> rfl

/-- The free text of a value, under the element that it goes into. -/
def valueTexts : Option Property.Value → List (String × String)
  | some (.text content) => [("value", content)]
  | _ => []

def optionalTexts (name : String) (text : Option String) : List (String × String) :=
  text.toList.map fun text => (name, text)

/-- The free texts of a property, in the order in which they are judged. -/
def detailTexts (detail : Detail) : List (String × String) :=
  valueTexts detail.value ++ optionalTexts "id" detail.id

def messageTexts (message : Message) : List (String × String) :=
  (message.details.getD []).flatMap detailTexts ++ optionalTexts "name" message.name

def offence? (texts : List (String × String)) : Option Error :=
  (texts.find? fun item => !isCarried item.2).map fun item =>
    .invalidValue item.1 (escape item.2)

/-- A result that stands unless one of the texts is refused. -/
def judged {α : Type} (texts : List (String × String)) (result : α) : Except Error α :=
  match offence? texts with
  | none => .ok result
  | some error => .error error

@[simp] theorem offence?_nil : offence? [] = none := rfl

theorem offence?_append (first second : List (String × String)) :
    offence? (first ++ second) = (offence? first).or (offence? second) := by
  simp [offence?, List.find?_append, Option.map_or]

@[simp] theorem judged_nil {α : Type} (result : α) : judged [] result = .ok result := rfl

theorem judged_bind {α β : Type} (first second : List (String × String)) (result : α)
    (next : α → β) :
    (judged first result >>= fun result => judged second (next result)) =
      judged (first ++ second) (next result) := by
  simp only [judged, offence?_append]
  cases offence? first with
  | none => rfl
  | some error => rfl

theorem judged_map {α β : Type} (texts : List (String × String)) (result : α) (next : α → β) :
    (judged texts result >>= fun result => pure (next result)) = judged texts (next result) := by
  have h := judged_bind texts [] result next
  rwa [List.append_nil] at h

theorem carried_eq (element text : String) :
    carried element text = judged [(element, text)] text := by
  cases h : isCarried text <;> simp [carried, judged, offence?, h]

theorem isCarried_of_isGraphic {text : List Char} (h : ∀ c ∈ text, isGraphic c = true) :
    isCarried (String.ofList text) = true := by
  simp only [isCarried, String.toList_ofList, List.all_eq_true]
  intro c hc
  have hrange := toNat_of_isGraphic (h c hc)
  simp only [Xml.Version.allows, Bool.or_eq_true, Bool.and_eq_true, decide_eq_true_eq]
  omega

theorem isCarried_integerText (n : Int32) : isCarried (integerText n) = true :=
  isCarried_of_isGraphic fun _ => Decimal.isGraphic_of_mem_ofInt

theorem isCarried_octetsText (octets : List UInt8) : isCarried (octetsText octets) = true :=
  isCarried_of_isGraphic fun _ => Base64.isGraphic_of_mem_encode

theorem textNode_eq (name : String) (text : Option String) :
    textNode name text = judged (optionalTexts name text) (textTree name text) := by
  cases text with
  | none => rfl
  | some text =>
      by_cases hempty : text = ""
      · subst hempty
        rfl
      · simp only [textNode, if_neg hempty, carried_eq, judged_map]
        simp [textTree, textNodes, hempty, optionalTexts]

theorem textNode_integerText (name : String) (n : Int32) :
    textNode name (some (integerText n)) = .ok (textTree name (some (integerText n))) := by
  rw [textNode_eq]
  simp [judged, offence?, optionalTexts, isCarried_integerText]

theorem valueNode_eq (value : Option Property.Value) :
    valueNode value = judged (valueTexts value) (valueTree value) := by
  cases value with
  | none => rfl
  | some value =>
      cases value with
      | text content =>
          simp only [valueNode, carried_eq, judged_map]
          rfl
      | integer content => rfl
      | bytes content => rfl

theorem propertyNode_eq (detail : Detail) :
    propertyNode detail = judged (detailTexts detail) (propertyTree detail) := by
  simp only [propertyNode, valueNode_eq, textNode_eq "id", textNode_integerText]
  change (judged _ _ >>= fun value => judged _ _ >>= fun id => pure _) = _
  simp only [judged_map, judged_bind]
  rfl

theorem mapM_propertyNode (details : List Detail) :
    details.mapM propertyNode = judged (details.flatMap detailTexts) (details.map propertyTree) := by
  induction details with
  | nil => rfl
  | cons detail details ih =>
      simp only [List.mapM_cons, propertyNode_eq, ih, judged_map, judged_bind]
      rfl

theorem propertiesNode_eq (details : Option (List Detail)) :
    propertiesNode details =
      judged ((details.getD []).flatMap detailTexts) (propertiesTree details) := by
  cases details with
  | none => rfl
  | some details =>
      simp only [propertiesNode, mapM_propertyNode, judged_map]
      rfl

theorem messageNode_eq (message : Message) :
    messageNode message = judged (messageTexts message) (messageTree message) := by
  simp only [messageNode, propertiesNode_eq, textNode_eq, judged_map, judged_bind]
  rfl

theorem encode_eq (order : DeclarationOrder) (message : Message) :
    encode order message = judged (messageTexts message) (requestTree order message).document := by
  simp only [encode, messageNode_eq, judged_map]
  rfl

end PanelRelay.Envelope
