import PanelRelay.Json.Lexer

/-!
JSON documents. A document is read from its tokens with the arrays and objects that are still open
on a stack, and written without blanks.
-/

namespace PanelRelay.Json

inductive Value where
  | null
  | bool (value : Bool)
  | number (value : Number)
  | string (value : List Piece)
  | array (elements : List Value)
  /-- Members in the order of the text; a name may occur more than once. -/
  | object (members : List (List Piece × Value))

/-- An array or object whose latest element is being read; earlier ones stand in reverse. -/
inductive Frame where
  | array (before : List Value)
  | object (before : List (List Piece × Value)) (name : List Piece)

mutual

def read? (frames : List Frame) : List Token → Option Value
  | .null :: rest => close? .null frames rest
  | .bool value :: rest => close? (.bool value) frames rest
  | .number value :: rest => close? (.number value) frames rest
  | .string value :: rest => close? (.string value) frames rest
  | .beginArray :: .endArray :: rest => close? (.array []) frames rest
  | .beginArray :: rest => read? (.array [] :: frames) rest
  | .beginObject :: .endObject :: rest => close? (.object []) frames rest
  | .beginObject :: .string name :: .colon :: rest => read? (.object [] name :: frames) rest
  | _ => none

def close? (value : Value) (frames : List Frame) : List Token → Option Value
  | [] =>
      match frames with
      | [] => some value
      | _ :: _ => none
  | .comma :: .string name :: .colon :: rest =>
      match frames with
      | .object before current :: frames =>
          read? (.object ((current, value) :: before) name :: frames) rest
      | _ => none
  | .comma :: rest =>
      match frames with
      | .array before :: frames => read? (.array (value :: before) :: frames) rest
      | _ => none
  | .endArray :: rest =>
      match frames with
      | .array before :: frames => close? (.array (value :: before).reverse) frames rest
      | _ => none
  | .endObject :: rest =>
      match frames with
      | .object before current :: frames =>
          close? (.object ((current, value) :: before).reverse) frames rest
      | _ => none
  | _ => none

end

namespace Value

def ofTokens? (tokens : List Token) : Option Value :=
  read? [] tokens

def parse? (text : String) : Option Value :=
  (tokens? text.toList).bind ofTokens?

def ofText (text : String) : Value :=
  .string (pieces text)

def ofInt (n : Int) : Value :=
  .number (.ofInt n)

def ofOption {α : Type} (f : α → Value) : Option α → Value
  | none => .null
  | some a => f a

def ofMembers (members : List (String × Value)) : Value :=
  .object (members.map fun member => (pieces member.1, member.2))

end Value

mutual

def Value.tokens : Value → List Token
  | .null => [.null]
  | .bool value => [.bool value]
  | .number value => [.number value]
  | .string value => [.string value]
  | .array [] => [.beginArray, .endArray]
  | .array (element :: elements) =>
      .beginArray :: element.tokens ++ elementTokens elements ++ [.endArray]
  | .object [] => [.beginObject, .endObject]
  | .object ((name, value) :: members) =>
      .beginObject :: .string name :: .colon :: value.tokens ++ memberTokens members ++
        [.endObject]

def elementTokens : List Value → List Token
  | [] => []
  | element :: elements => .comma :: element.tokens ++ elementTokens elements

def memberTokens : List (List Piece × Value) → List Token
  | [] => []
  | (name, value) :: members =>
      .comma :: .string name :: .colon :: value.tokens ++ memberTokens members

end

namespace Value

def compact (value : Value) : String :=
  String.ofList (value.tokens.flatMap Token.spelling)

inductive Found where
  | absent
  | once (value : Value)
  | repeated

def find (name : String) (members : List (List Piece × Value)) : Found :=
  match members.filter fun member => member.1 = pieces name with
  | [] => .absent
  | [(_, value)] => .once value
  | _ => .repeated

end Value

end PanelRelay.Json
