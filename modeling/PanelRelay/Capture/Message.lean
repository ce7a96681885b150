import PanelRelay.Capture.Document
import PanelRelay.Property.Bag

/-!
A message from a capture. Its properties are taken in order: each address may occur once, and a
property reported as available must have a value. The value sent along with any other status is
kept, although no read yields it.
-/

namespace PanelRelay.Capture

open Property (Address Bag)

structure Message where
  kind : Option String
  properties : Bag

inductive Error where
  /-- In the words of the reader of JSON. -/
  | notACapture (explanation : String)
  | missingValue (address : Address)
  | duplicateProperty (address : Address)
  deriving DecidableEq

def Error.message : Error → String
  | .notACapture explanation => explanation
  | .missingValue address =>
      s!"property '{address.name}' at index {address.index} is Ok but has no value"
  | .duplicateProperty address =>
      s!"property '{address.name}' at index {address.index} is defined more than once"

/-- One explanation for all texts. -/
def explainBriefly (_ : String) : String :=
  "the text is not a captured message"

/-- What comes with a status other than `ok` is stored first, and then its status changed. -/
def addEntry (bag : Bag) (entry : Entry) : Except Error Bag :=
  if bag.contains entry.address then .error (.duplicateProperty entry.address)
  else
    match entry.status, entry.value with
    | .ok, some value => .ok (bag.set entry.address value)
    | .ok, none => .error (.missingValue entry.address)
    | status, value =>
        let bag := value.elim bag fun value => bag.set entry.address value
        .ok (bag.setStatus entry.address status)

def bagOf : List Entry → Bag → Except Error Bag
  | [], bag => .ok bag
  | entry :: entries, bag =>
      match addEntry bag entry with
      | .ok bag => bagOf entries bag
      | .error error => .error error

def Document.message (document : Document) : Except Error Message :=
  (bagOf document.entries Bag.empty).map fun properties =>
    { kind := document.kind, properties }

/--
The whole text is read before any property is judged; `explain` says why a text cannot be read as a
capture.
-/
def Message.parse (explain : String → String) (text : String) : Except Error Message :=
  match Document.parse? text with
  | none => .error (.notACapture (explain text))
  | some document => document.message

end PanelRelay.Capture
