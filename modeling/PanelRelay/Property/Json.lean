import PanelRelay.Json.Value
import PanelRelay.Property.Value
import PanelRelay.Text.Decimal

/-! Property values and statuses as JSON. -/

namespace PanelRelay.Property

open Json (pieces text?)

/-- A value is written as an object with one member, named for its kind. -/
def Value.json : Value → Json.Value
  | .text content => .ofMembers [("text", .ofText content)]
  | .integer content => .ofMembers [("integer", .ofInt content.toInt)]
  | .bytes content => .ofMembers [("bytes", .array (content.map fun octet => .ofInt octet.toNat))]

def integer? : Json.Value → Option Int
  | .number number => number.integer?
  | _ => none

def string? : Json.Value → Option String
  | .string content => text? content
  | _ => none

def octets? : Json.Value → Option (List UInt8)
  | .array elements => elements.mapM fun element => (integer? element).bind octet?
  | _ => none

def Value.ofMember? (name : List Json.Piece) (content : Json.Value) : Option Value :=
  if name = pieces "text" then (string? content).map .text
  else if name = pieces "integer" then ((integer? content).bind int32?).map .integer
  else if name = pieces "bytes" then (octets? content).map .bytes
  else none

def Value.ofJson? : Json.Value → Option Value
  | .object [(name, content)] => ofMember? name content
  | _ => none

def Status.json (status : Status) : Json.Value :=
  .ofText status.label

/-- A status is its label, alone or as the name of a null member. -/
def Status.ofJson? : Json.Value → Option Status
  | .string label => (text? label).bind ofLabel?
  | .object [(label, .null)] => (text? label).bind ofLabel?
  | _ => none

end PanelRelay.Property
