import PanelRelay.Base64
import PanelRelay.Envelope.Error
import PanelRelay.Envelope.Names
import PanelRelay.Event.Message
import PanelRelay.Text.Blank
import PanelRelay.Text.Decimal
import PanelRelay.Text.Replace
import PanelRelay.Xml.Document

/-!
Replies of the event logger. The message is found by local names alone; whatever else a reply holds
is passed over.
-/

namespace PanelRelay.Envelope

open Event (Detail Message)
open Xml (Element)

def isNil (element : Element) : Bool :=
  element.tag.value? "nil" = some "true"

def nillable? (element : Element) : Option String :=
  if isNil element then none else some element.text

def integer? (element : String) (text : String) : Except Error Int32 :=
  match Decimal.int32? (trim text.toList) with
  | some n => .ok n
  | none => .error (.invalidValue element text)

def octets? (element : String) (text : String) : Except Error (List UInt8) :=
  match Base64.decode? (trim text.toList) with
  | some octets => .ok octets
  | none => .error (.invalidValue element text)

/-- A value is read by the local name of its type; without one it is text. -/
def decodeValue (element : Element) : Except Error Property.Value :=
  match (element.tag.value? "type").map Xml.afterColon with
  | none => .ok (.text element.text)
  | some label =>
      if label = "string" then .ok (.text element.text)
      else if label = "int" then (integer? "value" element.text).map .integer
      else if label = "base64Binary" then (octets? "value" element.text).map .bytes
      else .error (.unsupportedType label)

def decodeIndex (element : Element) : Except Error Int32 :=
  match (element.child? "index").bind nillable? with
  | none => .error (.missingElement "index")
  | some text => integer? "index" text

def decodeOptionalValue (element : Element) : Except Error (Option Property.Value) :=
  match element.child? "value" with
  | none => .ok none
  | some child => if isNil child then .ok none else (decodeValue child).map some

def decodeDetail (element : Element) : Except Error Detail := do
  let index ← decodeIndex element
  let value ← decodeOptionalValue element
  return { id := (element.child? "id").bind nillable?, index, value }

/-- The properties of a list; the first that cannot be read decides the error. -/
def decodeDetails (element : Element) : Except Error (List Detail) :=
  (element.elements.filter fun child => child.name = propertyName).mapM decodeDetail

def decodeOptionalDetails (element : Element) : Except Error (Option (List Detail)) :=
  match element.child? "Properties" with
  | none => .ok none
  | some child => if isNil child then .ok none else (decodeDetails child).map some

def decodeMessage (element : Element) : Except Error Message := do
  let details ← decodeOptionalDetails element
  return { name := (element.child? "name").bind nillable?, details }

def faultText (element : Element) (name : String) : String :=
  String.ofList (trim ((element.child? name).elim [] fun child => child.text.toList))

def faultOf (element : Element) : Error :=
  .fault (faultText element "faultcode") (faultText element "faultstring")

def decodeContent (element : Element) : Except Error Message :=
  if element.name = faultName then .error (faultOf element)
  else if element.name = responseName then
    match element.child? resultName with
    | none => .error (.missingElement resultName)
    | some result => decodeMessage result
  else .error (.unexpectedElement element.name)

def decodeEnvelope (root : Element) : Except Error Message :=
  if root.name = "Envelope" then
    match root.child? "Body" with
    | none => .error .missingBody
    | some body =>
        match body.elements with
        | [] => .error (.missingElement responseName)
        | content :: _ => decodeContent content
  else .error .missingEnvelope

def decode (octets : List UInt8) : Except Error Message :=
  match Element.parse? octets with
  | none => .error .malformed
  | some root => decodeEnvelope root

/--
The reply of a service that sends a message back as it came: the request, with its operation and
the part in it renamed.
-/
def echo (request : String) : String :=
  let renamed := replaceAll "<logMessage xmlns".toList "<logMessageResponse xmlns".toList
    request.toList
  let renamed := replaceAll "</logMessage>".toList "</logMessageResponse>".toList renamed
  String.ofList (replaceAll "message>".toList "reponse>".toList renamed)

end PanelRelay.Envelope
