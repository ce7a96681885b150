import PanelRelay.Text.Decimal

/-!
Floating point numbers of 64 bits as decimals. A number is written with the fewest digits that still
denote it and no other number, in positional notation whatever its size.
-/

namespace PanelRelay.FloatText

structure Binary where
  significand : Nat
  exponent : Int
  /-- Whether the number below is only half as far away as the one above. -/
  narrow : Bool

def hiddenBit : Nat := 0x10000000000000

def Binary.ofFloat (value : Float) : Binary :=
  let bits := value.toBits.toNat
  let fraction : Nat := bits % hiddenBit
  let biased : Nat := bits / hiddenBit % 0x800
  if biased = 0 then { significand := fraction, exponent := -1074, narrow := false }
  else
    { significand := hiddenBit + fraction
      exponent := (biased : Int) - 1075
      narrow := fraction = 0 && 1 < biased }

structure Scaled where
  multiple : Nat
  power : Int

/--
The multiple of a power of ten that denotes the number: within the reals that round to it, whose
ends belong to an even significand. Of two that are equally near the larger one counts.
-/
def Binary.onGrid? (binary : Binary) (power : Int) : Option Scaled :=
  let unit := Nat.pow 2 (binary.exponent - 2).toNat * Nat.pow 10 (-power).toNat
  let grid := Nat.pow 2 (2 - binary.exponent).toNat * Nat.pow 10 power.toNat
  let value := 4 * binary.significand * unit
  let low := value - (if binary.narrow then 1 else 2) * unit
  let high := value + 2 * unit
  let isInside (n : Nat) : Bool :=
    if binary.significand % 2 = 0 then low ≤ n && n ≤ high else low < n && n < high
  let below := value / grid
  let above := below + 1
  if isInside (below * grid) ∧
      (value - below * grid < above * grid - value ∨ !isInside (above * grid)) then
    some { multiple := below, power }
  else if isInside (above * grid) then some { multiple := above, power }
  else none

def powers : List Int :=
  (List.range 640).map fun (n : Nat) => 310 - (n : Int)

/-- The coarsest grid that the number is found on gives the fewest digits. -/
def Binary.shortest (binary : Binary) : Scaled :=
  if binary.significand = 0 then { multiple := 0, power := 0 }
  else (powers.findSome? binary.onGrid?).getD { multiple := 0, power := 0 }

def Scaled.text (scaled : Scaled) : List Char :=
  let digits := Decimal.ofNat scaled.multiple
  if 0 ≤ scaled.power then digits ++ List.replicate scaled.power.toNat '0'
  else
    let places := (-scaled.power).toNat
    if places < digits.length then
      digits.take (digits.length - places) ++ '.' :: digits.drop (digits.length - places)
    else '0' :: '.' :: List.replicate (places - digits.length) '0' ++ digits

def isNegative (value : Float) : Bool :=
  0x8000000000000000 ≤ value.toBits.toNat

def text (value : Float) : String :=
  if value.isNaN then "NaN"
  else
    let magnitude :=
      if value.isInf then "inf".toList
      else (Binary.ofFloat value).shortest.text
    String.ofList (if isNegative value then '-' :: magnitude else magnitude)

/-- The number nearest to `mantissa * 10 ^ exponent`; infinite where all are too small. -/
def ofDecimal (mantissa : Nat) (exponent : Int) : Float :=
  let magnitude := exponent + (Decimal.ofNat mantissa).length
  if mantissa = 0 ∨ magnitude < -400 then 0
  else if 400 < magnitude then 1 / 0
  else Float.ofScientific mantissa (exponent < 0) exponent.natAbs

end PanelRelay.FloatText
