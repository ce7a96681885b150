import PanelRelay.Settings.Value
import PanelRelay.Text.Radix
import PanelRelay.Text.Split
import PanelRelay.Toml.Moment

/-! Values that are written without quotes: truth values, numbers, dates and times. -/

namespace PanelRelay.Toml

open Settings (Value)

def ungrouped? (isDigit : Char → Bool) (text : List Char) : Option (List Char) :=
  let groups := splitAtAll (· = '_') text
  if groups.all fun group => group ≠ [] && group.all isDigit then some groups.flatten else none

def wholePart? (text : List Char) : Option (List Char) := do
  let digits ← ungrouped? Char.isDigit text
  if digits.length > 1 ∧ digits.head? = some '0' then none else some digits

def takeSign : List Char → Bool × List Char
  | '-' :: rest => (true, rest)
  | '+' :: rest => (false, rest)
  | text => (false, text)

def radixInteger? (base : Nat) (text : List Char) : Option Nat := do
  numeral? base (← ungrouped? (fun c => (digit? base c).isSome) text)

def magnitude? (text : List Char) : Option Nat := do
  Decimal.natural? (← wholePart? text)

def integer? (text : List Char) : Option Int := do
  let n ← match text with
    | '0' :: 'x' :: digits => (radixInteger? 16 digits).map Int.ofNat
    | '0' :: 'o' :: digits => (radixInteger? 8 digits).map Int.ofNat
    | '0' :: 'b' :: digits => (radixInteger? 2 digits).map Int.ofNat
    | text =>
        let (negative, digits) := takeSign text
        (magnitude? digits).map fun n => if negative then -(n : Int) else n
  if isInt64 n then some n else none

def isDigitOrUnderscore (c : Char) : Bool :=
  c.isDigit || c = '_'

def takeFraction? : List Char → Option (List Char × List Char)
  | '.' :: text =>
      (ungrouped? Char.isDigit (text.takeWhile isDigitOrUnderscore)).map
        (·, text.dropWhile isDigitOrUnderscore)
  | text => some ([], text)

def exponent? : List Char → Option Int
  | [] => some 0
  | c :: text =>
      if c = 'e' ∨ c = 'E' then do
        let (negative, digits) := takeSign text
        let n ← Decimal.natural? (← ungrouped? Char.isDigit digits)
        return if negative then -(n : Int) else n
      else none

/-- Without a fraction and an exponent a number is no floating point number. -/
def unsignedFloat? (text : List Char) : Option Float :=
  if text = "inf".toList then some (1 / 0)
  else if text = "nan".toList then some (0 / 0)
  else if text.all isDigitOrUnderscore then none
  else do
    let whole ← wholePart? (text.takeWhile isDigitOrUnderscore)
    let (fraction, text) ← takeFraction? (text.dropWhile isDigitOrUnderscore)
    let exponent ← exponent? text
    let value := FloatText.ofDecimal (Nat.ofDigitChars 10 (whole ++ fraction) 0)
      (exponent - fraction.length)
    if value.isInf then none else some value

def float? (text : List Char) : Option Float :=
  let (negative, text) := takeSign text
  (unsignedFloat? text).map fun value => if negative then -value else value

def word? (text : List Char) : Option Value :=
  if text = "true".toList then some (.bool true)
  else if text = "false".toList then some (.bool false)
  else
    match integer? text with
    | some n => some (.integer n)
    | none =>
        match moment? text with
        | some moment => some (.text (String.ofList moment))
        | none => (float? text).map .float

def isWordChar (c : Char) : Bool :=
  c.isAlphanum || c ∈ ['+', '-', '.', '_', ':']

/-- A word up to what cannot belong to it; one blank may separate a date from a time. -/
def takeWord? (text : List Char) : Option (Value × List Char) :=
  let word := text.takeWhile isWordChar
  let rest := text.dropWhile isWordChar
  match rest with
  | ' ' :: c :: _ =>
      if (takeDate? word).any (fun taken => taken.2 = []) ∧ c.isDigit then
        let time := rest.tail.takeWhile isWordChar
        (word? (word ++ 'T' :: time)).map (·, rest.tail.dropWhile isWordChar)
      else (word? word).map (·, rest)
  | _ => (word? word).map (·, rest)

end PanelRelay.Toml
