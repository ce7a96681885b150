import PanelRelay.Json.Value
import PanelRelay.Settings.Magnitude
import PanelRelay.Settings.Path
import PanelRelay.Toml.Document

/-! Formats of files with settings. Two of them are read here. -/

namespace PanelRelay.Settings

open Json (Number)

/-- A whole number that fits into a word of 64 bits is kept as it is. -/
def numberOf? (number : Number) : Option Value :=
  match number.integer?.filter isInt64 with
  | some n => some (.integer n)
  | none =>
      (Magnitude.ofNumber number).toFloat?.map fun value =>
        .float (if number.negative then -value else value)

mutual

/-- A document nested no deeper than `depth`; of members with one name the last counts. -/
def ofJson? (depth : Nat) : Json.Value → Option Value
  | .null => some .nil
  | .bool value => some (.bool value)
  | .number number => numberOf? number
  | .string content => (Json.text? content).map .text
  | .array elements =>
      if depth = 0 then none else (elementsOfJson? (depth - 1) elements).map .array
  | .object members =>
      if depth = 0 then none else (membersOfJson? (depth - 1) [] members).map .table

def elementsOfJson? (depth : Nat) : List Json.Value → Option (List Value)
  | [] => some []
  | element :: elements => do
      let value ← ofJson? depth element
      return value :: (← elementsOfJson? depth elements)

def membersOfJson? (depth : Nat) (before : Members) :
    List (List Json.Piece × Json.Value) → Option Members
  | [] => some before
  | (name, member) :: members => do
      let name ← Json.text? name
      let value ← ofJson? depth member
      membersOfJson? depth (put name value before) members

end

def maxDepth : Nat := 127

def parseJson? (text : List Char) : Option Members := do
  match ← ofJson? maxDepth (← Json.Value.parse? (String.ofList text)) with
  | .table members => some members
  | _ => none

/-- A format of files: what their names end in, and how their text is read. -/
structure Format where
  extension : String
  read : List Char → Except String Members

namespace Format

def fileName (format : Format) (name : String) : String :=
  s!"{name}.{format.extension}"

def malformed : String := "malformed text"

def toml : Format where
  extension := "toml"
  read text := ((Toml.parse? text).map .ok).getD (.error malformed)

def json : Format where
  extension := "json"
  read text := ((parseJson? text).map .ok).getD (.error malformed)

end Format

end PanelRelay.Settings
