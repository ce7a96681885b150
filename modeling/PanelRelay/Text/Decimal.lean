/-! Decimal numerals over ASCII digits, and their reading into fixed-width words. -/

namespace PanelRelay.Decimal

def ofNat (n : Nat) : List Char :=
  Nat.toDigits 10 n

def ofInt (n : Int) : List Char :=
  if n < 0 then '-' :: ofNat n.natAbs else ofNat n.natAbs

/-- Fills with zeros on the left up to `width` digits; a longer numeral is left alone. -/
def padded (width n : Nat) : List Char :=
  List.replicate (width - (ofNat n).length) '0' ++ ofNat n

/-- One or more digits, leading zeros allowed, of any length. -/
def natural? (digits : List Char) : Option Nat :=
  if digits ≠ [] ∧ digits.all Char.isDigit then
    some (Nat.ofDigitChars 10 digits 0)
  else none

def integer? : List Char → Option Int
  | '-' :: digits => (natural? digits).map fun n => -(n : Int)
  | '+' :: digits => (natural? digits).map fun n => (n : Int)
  | digits => (natural? digits).map fun n => (n : Int)

@[simp] theorem natural?_ofNat (n : Nat) : natural? (ofNat n) = some n := by
  have hdigits : (Nat.toDigits 10 n).all Char.isDigit = true := by
    rw [List.all_eq_true]
    intro c hc
    exact Nat.isDigit_of_mem_toDigits (by omega) (by omega) hc
  simp [natural?, ofNat, hdigits, Nat.toDigits_ne_nil, Nat.ofDigitChars_ten_toDigits]

end PanelRelay.Decimal

namespace PanelRelay

def int32? (n : Int) : Option Int32 :=
  if -0x80000000 ≤ n ∧ n < 0x80000000 then some (Int32.ofInt n) else none

def uint32? (n : Int) : Option UInt32 :=
  if 0 ≤ n ∧ n < 0x100000000 then some (UInt32.ofNat n.toNat) else none

def octet? (n : Int) : Option UInt8 :=
  if 0 ≤ n ∧ n < 256 then some (UInt8.ofNat n.toNat) else none

def isInt64 (n : Int) : Bool :=
  -0x8000000000000000 ≤ n && n < 0x8000000000000000

/-- Reads a signed numeral into a 32 bit word; a value out of range is refused, never wrapped. -/
def Decimal.int32? (numeral : List Char) : Option Int32 :=
  (Decimal.integer? numeral).bind PanelRelay.int32?

@[simp] theorem int32?_toInt (n : Int32) : int32? n.toInt = some n := by
  have hlow := n.le_toInt
  have hhigh := n.toInt_lt
  simp only [int32?]
  rw [if_pos (by omega), Int32.ofInt_toInt]

@[simp] theorem uint32?_toNat (n : UInt32) : uint32? n.toNat = some n := by
  have hhigh := n.toNat_lt
  simp only [uint32?]
  rw [if_pos (by omega), Int.toNat_natCast, UInt32.ofNat_toNat]

@[simp] theorem octet?_toNat (n : UInt8) : octet? n.toNat = some n := by
  have hhigh := n.toNat_lt
  simp only [octet?]
  rw [if_pos (by omega), Int.toNat_natCast, UInt8.ofNat_toNat]

end PanelRelay
