import PanelRelay.Calendar
import PanelRelay.Text.Blank

/-!
Dates and times. Their text is normalised: a `T` between date and time, and of a fraction at most
nine digits, without the zeros at its end unless there is nothing else in it.
-/

namespace PanelRelay.Toml

def takeFixed? (width : Nat) (text : List Char) : Option (Nat × List Char) :=
  let digits := text.take width
  if digits.length = width then (Decimal.natural? digits).map (·, text.drop width) else none

def takeMark? (mark : Char) : List Char → Option (List Char)
  | c :: rest => if c = mark then some rest else none
  | [] => none

def takeDate? (text : List Char) : Option (List Char × List Char) := do
  let (year, text) ← takeFixed? 4 text
  let (month, text) ← takeFixed? 2 (← takeMark? '-' text)
  let (day, text) ← takeFixed? 2 (← takeMark? '-' text)
  if 1 ≤ month ∧ month ≤ 12 ∧ 1 ≤ day ∧ day ≤ Calendar.daysInMonth year month then
    return (Decimal.padded 4 year ++ '-' :: Decimal.padded 2 month ++
      '-' :: Decimal.padded 2 day, text)
  else none

def takeSecondFraction? : List Char → Option (List Char × List Char)
  | '.' :: text =>
      let digits := text.takeWhile Char.isDigit
      if digits = [] then none
      else
        let kept := dropEndWhile (· = '0') (digits.take 9)
        some ('.' :: (if kept = [] then ['0'] else kept), text.dropWhile Char.isDigit)
  | text => some ([], text)

def takeSecond? : List Char → Option (List Char × List Char)
  | ':' :: text => do
      let (second, text) ← takeFixed? 2 text
      let (fraction, text) ← takeSecondFraction? text
      if second ≤ 60 then return (':' :: Decimal.padded 2 second ++ fraction, text) else none
  | text => some ([], text)

def takeTime? (text : List Char) : Option (List Char × List Char) := do
  let (hour, text) ← takeFixed? 2 text
  let (minute, text) ← takeFixed? 2 (← takeMark? ':' text)
  let (second, text) ← takeSecond? text
  if hour ≤ 23 ∧ minute ≤ 59 then
    return (Decimal.padded 2 hour ++ ':' :: Decimal.padded 2 minute ++ second, text)
  else none

def offset? : List Char → Option (List Char)
  | [] => some []
  | ['Z'] => some ['Z']
  | ['z'] => some ['Z']
  | sign :: text => do
      let (hour, text) ← takeFixed? 2 text
      let (minute, text) ← takeFixed? 2 (← takeMark? ':' text)
      if (sign = '+' ∨ sign = '-') ∧ hour ≤ 23 ∧ minute ≤ 59 ∧ text = [] then
        let sign := if hour = 0 ∧ minute = 0 then '+' else sign
        return sign :: Decimal.padded 2 hour ++ ':' :: Decimal.padded 2 minute
      else none

def afterDate? (date : List Char) : List Char → Option (List Char)
  | [] => some date
  | c :: text =>
      if c = 'T' ∨ c = 't' then do
        let (time, text) ← takeTime? text
        let offset ← offset? text
        return date ++ 'T' :: time ++ offset
      else none

def moment? (text : List Char) : Option (List Char) :=
  match takeDate? text with
  | some (date, rest) => afterDate? date rest
  | none =>
      match takeTime? text with
      | some (time, []) => some time
      | _ => none

end PanelRelay.Toml
