import PanelRelay.Settings.Value
import PanelRelay.Text.Blank
import PanelRelay.Text.Decimal

/-!
Places of settings, and storing values there. Tables are merged member by member; any other value
replaces what was there. What stands in the way of a place gives way to it.
-/

namespace PanelRelay.Settings

inductive Step where
  | key (name : String)
  | index (index : Int)
  deriving DecidableEq

structure Path where
  root : String
  steps : List Step := []

namespace Path

def isNameChar (c : Char) : Bool :=
  c.isAlphanum || c = '-' || c = '_'

/-- An index is a word of 64 bits, without a plus sign. -/
def index? : List Char → Option Int
  | '+' :: _ => none
  | numeral => (Decimal.integer? numeral).filter isInt64

def takeIndex? (text : List Char) : Option (Int × List Char) :=
  match text.dropWhile (· ≠ ']') with
  | _ :: rest =>
      let inner := (text.takeWhile (· ≠ ']')).dropWhile isLayout
      (index? (dropEndWhile isLayout inner)).map (·, rest)
  | [] => none

def steps? (text : List Char) : Option (List Step) :=
  match text with
  | [] => some []
  | '.' :: rest =>
      let name := rest.takeWhile isNameChar
      have := (List.dropWhile_suffix (l := rest) isNameChar).length_le
      if name = [] then none
      else (steps? (rest.dropWhile isNameChar)).map (.key (String.ofList name) :: ·)
  | '[' :: rest =>
      match takeIndex? rest with
      | none => none
      | some (index, rest') =>
          if _ : rest'.length ≤ rest.length then (steps? rest').map (.index index :: ·) else none
  | _ => none
termination_by text.length
decreasing_by all_goals simp only [List.length_cons] at *; omega

/-- Names with dots between them, and indices in brackets. -/
def parse? (text : String) : Option Path := do
  let name := text.toList.takeWhile isNameChar
  if name = [] then none
  else
    let steps ← steps? (text.toList.dropWhile isNameChar)
    return { root := String.ofList name, steps }

def ofText (text : String) : Path :=
  (parse? text).getD { root := text }

end Path

namespace Value

def members : Value → Members
  | .table members => members
  | _ => []

def elements : Value → List Value
  | .array elements => elements
  | _ => []

end Value

def put (name : String) (value : Value) (members : Members) : Members :=
  if (members.lookup name).isSome then
    members.map fun member => if member.1 = name then (name, value) else member
  else members ++ [(name, value)]

mutual

def merge (base : Value) : Value → Value
  | .table members => .table (mergeMembers base.members members)
  | .nil => .nil
  | .bool value => .bool value
  | .integer value => .integer value
  | .float value => .float value
  | .text value => .text value
  | .array elements => .array elements

def mergeMembers (base : Members) : List (String × Value) → Members
  | [] => base
  | (name, value) :: rest =>
      mergeMembers (put name (merge ((base.lookup name).getD .nil) value) base) rest

end

/-- The position of an index, and how many elements have to be put in front to reach it. -/
def positionOf (index : Int) (size : Nat) : Nat × Nat :=
  if 0 ≤ index then (index.toNat, 0)
  else if -index ≤ size then ((size + index).toNat, 0)
  else (0, (-index - size).toNat)

def update (change : Value → Value) : List Step → Value → Value
  | [], value => change value
  | .key name :: steps, value =>
      .table (put name (update change steps ((value.members.lookup name).getD .nil)) value.members)
  | .index index :: steps, value =>
      let (position, missing) := positionOf index value.elements.length
      let elements := List.replicate missing .nil ++ value.elements
      let elements := elements ++ List.replicate (position + 1 - elements.length) .nil
      .array (elements.set position (update change steps (elements.getD position .nil)))

def store (members : Members) (name : String) (value : Value) : Members :=
  let path := Path.ofText name
  put path.root
    (update (merge · value) path.steps ((members.lookup path.root).getD .nil)) members

end PanelRelay.Settings
