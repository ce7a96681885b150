import PanelRelay.Text.Utf16

/-! The tokens of JSON, and their spelling. -/

namespace PanelRelay.Json

/-- One position of a string: a character, or a surrogate that no neighbour completes. -/
inductive Piece where
  | char (c : Char)
  | surrogate (unit : Nat)
  deriving DecidableEq

def pieces (text : String) : List Piece :=
  text.toList.map Piece.char

def Piece.char? : Piece → Option Char
  | .char c => some c
  | .surrogate _ => none

def text? (content : List Piece) : Option String :=
  (content.mapM Piece.char?).map String.ofList

structure Number where
  negative : Bool
  whole : List Char
  fraction : Option (List Char) := none
  /-- Sign, true for a minus, and digits. -/
  exponent : Option (Bool × List Char) := none
  deriving DecidableEq

namespace Number

def ofInt (n : Int) : Number where
  negative := n < 0
  whole := Nat.toDigits 10 n.natAbs

/-- The value of a literal without fraction and exponent; a negative zero is none. -/
def integer? (number : Number) : Option Int :=
  if number.fraction.isNone ∧ number.exponent.isNone then
    let magnitude := Nat.ofDigitChars 10 number.whole 0
    if number.negative then
      if magnitude = 0 then none else some (-(magnitude : Int))
    else some magnitude
  else none

def spelling (number : Number) : List Char :=
  (if number.negative then ['-'] else []) ++ number.whole ++
    (number.fraction.elim [] ('.' :: ·)) ++
    (number.exponent.elim [] fun exponent =>
      'e' :: (if exponent.1 then ['-'] else []) ++ exponent.2)

end Number

inductive Token where
  | beginObject
  | endObject
  | beginArray
  | endArray
  | colon
  | comma
  | null
  | bool (value : Bool)
  | number (value : Number)
  | string (value : List Piece)
  deriving DecidableEq

def unitEscape (unit : Nat) : List Char :=
  ['\\', 'u', Nat.digitChar (unit / 4096 % 16), Nat.digitChar (unit / 256 % 16),
    Nat.digitChar (unit / 16 % 16), Nat.digitChar (unit % 16)]

def Piece.spelling : Piece → List Char
  | .char '"' => ['\\', '"']
  | .char '\\' => ['\\', '\\']
  | .char '\x08' => ['\\', 'b']
  | .char '\x0c' => ['\\', 'f']
  | .char '\n' => ['\\', 'n']
  | .char '\r' => ['\\', 'r']
  | .char '\t' => ['\\', 't']
  | .char c => if c < ' ' then unitEscape c.toNat else [c]
  | .surrogate unit => unitEscape unit

def Token.spelling : Token → List Char
  | .beginObject => ['{']
  | .endObject => ['}']
  | .beginArray => ['[']
  | .endArray => [']']
  | .colon => [':']
  | .comma => [',']
  | .null => ['n', 'u', 'l', 'l']
  | .bool true => ['t', 'r', 'u', 'e']
  | .bool false => ['f', 'a', 'l', 's', 'e']
  | .number value => value.spelling
  | .string value => '"' :: value.flatMap Piece.spelling ++ ['"']

@[simp] theorem text?_pieces (text : String) : text? (pieces text) = some text := by
  have hchars (chars : List Char) : (chars.map Piece.char).mapM Piece.char? = some chars := by
    induction chars with
    | nil => rfl
    | cons c chars ih => simp [List.mapM_cons, ih, Piece.char?]
  simp [text?, pieces, hchars]

end PanelRelay.Json
