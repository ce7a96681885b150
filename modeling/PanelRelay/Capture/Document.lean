import PanelRelay.Property.Json
import PanelRelay.Property.Store

/-!
The form of a captured message. A message and each of its properties are written either as objects,
where unknown members are passed over and a known one stands at most once, or as arrays of their
fields in order.
-/

namespace PanelRelay.Capture

open Json (Piece)
open Property (Address Status)

structure Entry where
  name : String
  index : UInt32 := 0
  status : Status := .ok
  value : Option Property.Value
  deriving DecidableEq

def Entry.address (entry : Entry) : Address where
  name := entry.name
  index := entry.index

structure Document where
  kind : Option String
  entries : List Entry := []
  deriving DecidableEq

/-- A member that may be missing, but not repeated. -/
def member? (name : String) (members : List (List Piece × Json.Value)) :
    Option (Option Json.Value) :=
  match Json.Value.find name members with
  | .absent => some none
  | .once value => some (some value)
  | .repeated => none

/-- Whether every member has a name that is a text, known or not. -/
def namesAreTexts (members : List (List Piece × Json.Value)) : Bool :=
  members.all fun member => (Json.text? member.1).isSome

def nullable? {α : Type} (read? : Json.Value → Option α) : Json.Value → Option (Option α)
  | .null => some none
  | value => (read? value).map some

def index? (value : Json.Value) : Option UInt32 :=
  (Property.integer? value).bind uint32?

def defaulted? {α : Type} (default : α) (read? : Json.Value → Option α) :
    Option Json.Value → Option α
  | none => some default
  | some value => read? value

def Entry.ofFields? (name : Json.Value) (index status : Option Json.Value) (value : Json.Value) :
    Option Entry := do
  let name ← Property.string? name
  let index ← defaulted? 0 index? index
  let status ← defaulted? .ok Status.ofJson? status
  let value ← nullable? Property.Value.ofJson? value
  return { name, index, status, value }

def Entry.ofJson? : Json.Value → Option Entry
  | .object members =>
      if namesAreTexts members then do
        let name ← (← member? "name" members)
        let index ← member? "index" members
        let status ← member? "status" members
        let value ← member? "value" members
        ofFields? name index status (value.getD .null)
      else none
  | .array [name, index, status, value] => ofFields? name (some index) (some status) value
  | _ => none

def entries? : Json.Value → Option (List Entry)
  | .array elements => elements.mapM Entry.ofJson?
  | _ => none

def Document.ofFields? (kind : Json.Value) (properties : Option Json.Value) :
    Option Document := do
  let kind ← nullable? Property.string? kind
  let entries ← defaulted? [] entries? properties
  return { kind, entries }

def Document.ofJson? : Json.Value → Option Document
  | .object members =>
      if namesAreTexts members then do
        let kind ← member? "kind" members
        let properties ← member? "properties" members
        ofFields? (kind.getD .null) properties
      else none
  | .array [kind] => ofFields? kind none
  | .array [kind, properties] => ofFields? kind (some properties)
  | _ => none

def Document.parse? (text : String) : Option Document :=
  (Json.Value.parse? text).bind ofJson?

end PanelRelay.Capture
