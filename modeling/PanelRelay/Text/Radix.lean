/-! Digits and numerals of bases up to sixteen. -/

namespace PanelRelay

def hexDigit? (c : Char) : Option Nat :=
  if '0' ≤ c ∧ c ≤ '9' then some (c.toNat - '0'.toNat)
  else if 'a' ≤ c ∧ c ≤ 'f' then some (c.toNat - 'a'.toNat + 10)
  else if 'A' ≤ c ∧ c ≤ 'F' then some (c.toNat - 'A'.toNat + 10)
  else none

def digit? (base : Nat) (c : Char) : Option Nat :=
  (hexDigit? c).filter (· < base)

def numeral? (base : Nat) (digits : List Char) : Option Nat :=
  if digits = [] then none
  else digits.foldlM (fun n c => (digit? base c).map (n * base + ·)) 0

end PanelRelay
