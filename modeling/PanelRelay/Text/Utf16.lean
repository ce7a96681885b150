/-! Texts as pairs of octets, one code unit each. -/

namespace PanelRelay.Utf16

inductive Order where
  | bigEndian
  | littleEndian

def Order.unit : Order → UInt8 → UInt8 → Nat
  | .bigEndian, first, second => first.toNat * 256 + second.toNat
  | .littleEndian, first, second => second.toNat * 256 + first.toNat

def isHighSurrogate (unit : Nat) : Bool :=
  0xd800 ≤ unit && unit ≤ 0xdbff

def isLowSurrogate (unit : Nat) : Bool :=
  0xdc00 ≤ unit && unit ≤ 0xdfff

def join (high low : Nat) : Char :=
  Char.ofNat (0x10000 + (high - 0xd800) * 0x400 + (low - 0xdc00))

/-- Refuses half a unit and a surrogate without its partner. -/
def decode? (order : Order) : List UInt8 → Option (List Char)
  | [] => some []
  | [_] => none
  | first :: second :: octets =>
      let unit := order.unit first second
      if isHighSurrogate unit then
        match octets with
        | third :: fourth :: octets =>
            let low := order.unit third fourth
            if isLowSurrogate low then
              (decode? order octets).map (join unit low :: ·)
            else none
        | _ => none
      else if isLowSurrogate unit then none
      else (decode? order octets).map (Char.ofNat unit :: ·)

end PanelRelay.Utf16
