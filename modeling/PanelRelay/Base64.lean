/-!
Octets as text over the standard alphabet of 64 symbols. Reading accepts padded groups of four with
the unused bits zero and nothing else, so every octet list has one spelling.
-/

namespace PanelRelay.Base64

def symbol (bits : Nat) : Char :=
  if bits < 26 then Char.ofNat ('A'.toNat + bits)
  else if bits < 52 then Char.ofNat ('a'.toNat + (bits - 26))
  else if bits < 62 then Char.ofNat ('0'.toNat + (bits - 52))
  else if bits = 62 then '+'
  else '/'

def bits? (c : Char) : Option Nat :=
  if 'A' ≤ c ∧ c ≤ 'Z' then some (c.toNat - 'A'.toNat)
  else if 'a' ≤ c ∧ c ≤ 'z' then some (c.toNat - 'a'.toNat + 26)
  else if '0' ≤ c ∧ c ≤ '9' then some (c.toNat - '0'.toNat + 52)
  else if c = '+' then some 62
  else if c = '/' then some 63
  else none

def encode : List UInt8 → List Char
  | [] => []
  | [a] => [symbol (a.toNat / 4), symbol (a.toNat % 4 * 16), '=', '=']
  | [a, b] =>
      [symbol (a.toNat / 4), symbol (a.toNat % 4 * 16 + b.toNat / 16),
        symbol (b.toNat % 16 * 4), '=']
  | a :: b :: c :: octets =>
      symbol (a.toNat / 4) :: symbol (a.toNat % 4 * 16 + b.toNat / 16) ::
        symbol (b.toNat % 16 * 4 + c.toNat / 64) :: symbol (c.toNat % 64) :: encode octets

def decodeLast? (a b c d : Char) : Option (List UInt8) := do
  let a ← bits? a
  let b ← bits? b
  if d = '=' then
    if c = '=' then
      if b % 16 = 0 then some [UInt8.ofNat (a * 4 + b / 16)] else none
    else
      let c ← bits? c
      if c % 4 = 0 then
        some [UInt8.ofNat (a * 4 + b / 16), UInt8.ofNat (b % 16 * 16 + c / 4)]
      else none
  else none

def decodeGroup? (a b c d : Char) : Option (List UInt8) := do
  let a ← bits? a
  let b ← bits? b
  let c ← bits? c
  let d ← bits? d
  some [UInt8.ofNat (a * 4 + b / 16), UInt8.ofNat (b % 16 * 16 + c / 4),
    UInt8.ofNat (c % 4 * 64 + d)]

def decode? : List Char → Option (List UInt8)
  | [] => some []
  | [a, b, c, d] =>
      if d = '=' then decodeLast? a b c d else decodeGroup? a b c d
  | a :: b :: c :: d :: text => do
      let octets ← decodeGroup? a b c d
      return octets ++ (← decode? text)
  | _ => none

end PanelRelay.Base64
