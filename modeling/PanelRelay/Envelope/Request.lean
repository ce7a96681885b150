import PanelRelay.Base64
import PanelRelay.Envelope.Error
import PanelRelay.Envelope.Names
import PanelRelay.Event.Message
import PanelRelay.Text.Decimal
import PanelRelay.Text.Escape
import PanelRelay.Xml.Character
import PanelRelay.Xml.Printer

/-!
Requests to the event logger. A message becomes a tree and the tree a document, unless a text of it
holds a character that no document can carry; the first such text decides the error.
-/

namespace PanelRelay.Envelope

open Event (Detail Message)
open Xml (Attribute Name Node Tag)

def isCarried (text : String) : Bool :=
  text.toList.all Xml.Version.v10.allows

/-- The text, provided that a document can carry it in the element of that name. -/
def carried (element text : String) : Except Error String :=
  if isCarried text then .ok text else .error (.invalidValue element (escape text))

def plainTag (name : String) : Tag where
  name := .plain name

def nilTag (name : String) : Tag where
  name := .plain name
  attributes := [{ name := nilName, value := "true" }]

def typedTag (name type : String) : Tag where
  name := .plain name
  attributes := [{ name := typeName, value := type }]

/-- An empty text is no node at all. -/
def textNodes (text : String) : List Node :=
  if text = "" then [] else [.text text]

def textNode (name : String) : Option String → Except Error Node
  | none => .ok (.element (nilTag name) [])
  | some text =>
      if text = "" then .ok (.element (plainTag name) [])
      else do
        let text ← carried name text
        return .element (plainTag name) [.text text]

def integerText (n : Int32) : String :=
  String.ofList (Decimal.ofInt n.toInt)

def octetsText (octets : List UInt8) : String :=
  String.ofList (Base64.encode octets)

def typedNode (type text : String) : Node :=
  .element (typedTag "value" type) (textNodes text)

def valueNode : Option Property.Value → Except Error Node
  | none => .ok (.element (nilTag "value") [])
  | some (.text content) => do
      let content ← carried "value" content
      return typedNode "xsd:string" content
  | some (.integer content) => .ok (typedNode "xsd:int" (integerText content))
  | some (.bytes content) => .ok (typedNode "xsd:base64Binary" (octetsText content))

def propertyTag : Tag where
  name := .plain propertyName
  attributes := [{ name := .plain "xmlns", value := propertyUri }]

/-- The value is looked at before the id, although it stands behind it. -/
def propertyNode (detail : Detail) : Except Error Node := do
  let value ← valueNode detail.value
  let id ← textNode "id" detail.id
  let index ← textNode "index" (some (integerText detail.index))
  return .element propertyTag [id, index, value]

def propertiesNode : Option (List Detail) → Except Error Node
  | none => .ok (.element (nilTag "Properties") [])
  | some details => do
      let nodes ← details.mapM propertyNode
      return .element (plainTag "Properties") nodes

def messageNode (message : Message) : Except Error Node := do
  let properties ← propertiesNode message.details
  let name ← textNode "name" message.name
  return .element (plainTag partName) [properties, name]

def operationTag : Tag where
  name := .plain operationName
  attributes := [{ name := .plain "xmlns", value := serviceUri }]

/-- The namespaces that are declared at the start of an envelope. -/
def declarations : List Attribute := [
  { name := .qualified "xmlns" "soap", value := envelopeUri },
  { name := .qualified "xmlns" "xsd", value := schemaUri },
  { name := .qualified "xmlns" "xsi", value := instanceUri }]

/-- An order for the declarations. None is settled on, and any two requests may differ in it. -/
structure DeclarationOrder where
  attributes : List Attribute
  perm : attributes.Perm declarations

def DeclarationOrder.alphabetical : DeclarationOrder where
  attributes := declarations
  perm := .refl declarations

def envelopeTag (order : DeclarationOrder) : Tag where
  name := .qualified "soap" "Envelope"
  attributes := order.attributes

def bodyTag : Tag where
  name := .qualified "soap" "Body"

def envelopeNode (order : DeclarationOrder) (content : Node) : Node :=
  .element (envelopeTag order) [.element bodyTag [content]]

def encode (order : DeclarationOrder) (message : Message) : Except Error String := do
  let part ← messageNode message
  return (envelopeNode order (.element operationTag [part])).document

end PanelRelay.Envelope
