import Mathlib.Data.List.Chain
import PanelRelay.Json.Value

/-!
How JSON is written. A document is written as its tokens, with blanks anywhere around them. A number
has one row of digits, but each position of a string may be spelled in several ways.
-/

namespace PanelRelay.Json

/-- Four hexadecimal digits, in either case, for a code unit. -/
inductive IsUnitSpelling : Nat → List Char → Prop
  | digits {a b c d : Char} {i j k l : Nat} :
      hexDigit? a = some i → hexDigit? b = some j → hexDigit? c = some k → hexDigit? d = some l →
      IsUnitSpelling (((i * 16 + j) * 16 + k) * 16 + l) [a, b, c, d]

namespace Piece

inductive IsSpelledBy : Piece → List Char → Prop
  | plain {c : Char} : ' ' ≤ c → c ≠ '"' → c ≠ '\\' → IsSpelledBy (.char c) [c]
  | short {c letter : Char} : shortEscape? letter = some c → IsSpelledBy (.char c) ['\\', letter]
  | unit {c : Char} {digits : List Char} :
      IsUnitSpelling c.toNat digits → IsSpelledBy (.char c) ('\\' :: 'u' :: digits)
  | pair {high low : Nat} {front back : List Char} :
      Utf16.isHighSurrogate high = true → Utf16.isLowSurrogate low = true →
      IsUnitSpelling high front → IsUnitSpelling low back →
      IsSpelledBy (.char (Utf16.join high low))
        ('\\' :: 'u' :: front ++ '\\' :: 'u' :: back)
  | lone {unit : Nat} {digits : List Char} :
      (Utf16.isHighSurrogate unit || Utf16.isLowSurrogate unit) = true →
      IsUnitSpelling unit digits → IsSpelledBy (.surrogate unit) ('\\' :: 'u' :: digits)

/-- Two surrogates that are one character when the one follows the other. -/
def Completes : Piece → Piece → Prop
  | .surrogate high, .surrogate low =>
      Utf16.isHighSurrogate high = true ∧ Utf16.isLowSurrogate low = true
  | _, _ => False

end Piece

inductive ArePiecesSpelledBy : List Piece → List Char → Prop
  | nil : ArePiecesSpelledBy [] []
  | cons {piece : Piece} {content : List Piece} {front text : List Char} :
      piece.IsSpelledBy front → ArePiecesSpelledBy content text →
      ArePiecesSpelledBy (piece :: content) (front ++ text)

/-- What stands between the quotes of a string; surrogates that make up a character count as one. -/
structure IsStringSpelling (content : List Piece) (text : List Char) : Prop where
  pieces : ArePiecesSpelledBy content text
  apart : content.IsChain fun piece next => ¬ piece.Completes next

def AreDigits (digits : List Char) : Prop :=
  digits ≠ [] ∧ ∀ c ∈ digits, c.isDigit = true

/-- A zero stands alone in front of the point. -/
def IsWhole (digits : List Char) : Prop :=
  AreDigits digits ∧ (digits.head? = some '0' → digits = ['0'])

inductive IsFractionSpelling : Option (List Char) → List Char → Prop
  | none : IsFractionSpelling none []
  | some {digits : List Char} :
      AreDigits digits → IsFractionSpelling (some digits) ('.' :: digits)

inductive IsExponentSpelling : Option (Bool × List Char) → List Char → Prop
  | none : IsExponentSpelling none []
  | bare {mark : Char} {digits : List Char} :
      mark = 'e' ∨ mark = 'E' → AreDigits digits →
      IsExponentSpelling (some (false, digits)) (mark :: digits)
  | plus {mark : Char} {digits : List Char} :
      mark = 'e' ∨ mark = 'E' → AreDigits digits →
      IsExponentSpelling (some (false, digits)) (mark :: '+' :: digits)
  | minus {mark : Char} {digits : List Char} :
      mark = 'e' ∨ mark = 'E' → AreDigits digits →
      IsExponentSpelling (some (true, digits)) (mark :: '-' :: digits)

def sign (negative : Bool) : List Char :=
  if negative then ['-'] else []

inductive Number.IsSpelledBy : Number → List Char → Prop
  | parts {number : Number} {fraction exponent : List Char} :
      IsWhole number.whole → IsFractionSpelling number.fraction fraction →
      IsExponentSpelling number.exponent exponent →
      IsSpelledBy number (sign number.negative ++ (number.whole ++ (fraction ++ exponent)))

def Token.IsSpelledBy : Token → List Char → Prop
  | .number value, text => value.IsSpelledBy text
  | .string content, text => ∃ body, IsStringSpelling content body ∧ text = '"' :: body ++ ['"']
  | token, text => text = token.spelling

def AreBlanks (text : List Char) : Prop :=
  ∀ c ∈ text, isBlank c = true

/-- Tokens in a row, with blanks before, between and behind them. -/
inductive AreSpelledBy : List Token → List Char → Prop
  | nil {blanks : List Char} : AreBlanks blanks → AreSpelledBy [] blanks
  | cons {token : Token} {tokens : List Token} {blanks text rest : List Char} :
      AreBlanks blanks → token.IsSpelledBy text → AreSpelledBy tokens rest →
      AreSpelledBy (token :: tokens) (blanks ++ (text ++ rest))

/-- The text is a document that holds the value. -/
def Value.IsWrittenAs (value : Value) (text : String) : Prop :=
  AreSpelledBy value.tokens text.toList

end PanelRelay.Json
