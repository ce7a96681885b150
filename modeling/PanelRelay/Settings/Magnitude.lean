import PanelRelay.Json.Token

/-!
Numbers of JSON as floating point numbers. The leading digits that fit into a word of 64 bits are
kept, and the power of ten comes in by one multiplication or division, both of which round. The last
bit may thus differ from the number that is nearest to the text.
-/

namespace PanelRelay.Settings

open Json (Number)

structure Magnitude where
  significand : Nat
  power : Int

namespace Magnitude

/-- Puts digits behind a number as long as they fit; how many do not is the second part. -/
def takeDigits (significand : Nat) : List Char → Nat × Nat
  | [] => (significand, 0)
  | c :: digits =>
      let longer := significand * 10 + (c.toNat - '0'.toNat)
      if longer < UInt64.size then takeDigits longer digits else (significand, digits.length + 1)

def exponentOf (number : Number) : Int :=
  number.exponent.elim 0 fun (negative, digits) =>
    let n := Nat.ofDigitChars 10 digits 0
    if negative then -(n : Int) else n

/-- Digits before the point that do not fit still count by their place; those behind it do not. -/
def ofNumber (number : Number) : Magnitude :=
  let fraction := number.fraction.getD []
  let (whole, missing) := takeDigits 0 number.whole
  let (significand, ignored) := takeDigits whole fraction
  let places := fraction.length - ignored
  { significand, power := (missing : Int) - places + exponentOf number }

/-- The exponent of the largest power of ten there is among floating point numbers. -/
def maxPower : Nat := 308

def powerOfTen (n : Nat) : Float :=
  Float.ofScientific 1 false n

def scaled? (value : Float) (power : Int) : Option Float :=
  if power.natAbs ≤ maxPower then
    if 0 ≤ power then
      let product := value * powerOfTen power.natAbs
      if product.isInf then none else some product
    else some (value / powerOfTen power.natAbs)
  else if value == 0 then some value
  else if 0 ≤ power then none
  else scaled? (value / powerOfTen maxPower) (power + maxPower)
termination_by power.natAbs
decreasing_by
  simp only [maxPower] at *
  omega

def toFloat? (magnitude : Magnitude) : Option Float :=
  scaled? (Float.ofNat magnitude.significand) magnitude.power

end Magnitude

end PanelRelay.Settings
