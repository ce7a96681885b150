/-! Hardware addresses, octets in network byte order as the device supplies them. -/

namespace PanelRelay.Device

structure Mac where
  octets : Vector UInt8 6
  deriving DecidableEq

inductive MacError where
  | invalidLength (found : Nat)
  deriving DecidableEq

def MacError.message : MacError → String
  | .invalidLength found => s!"expected 6 octets, found {found}"

namespace Mac

def ofOctets (octets : List UInt8) : Except MacError Mac :=
  if h : octets.length = 6 then .ok ⟨⟨octets.toArray, by simpa using h⟩⟩
  else .error (.invalidLength octets.length)

def upperDigit (n : Nat) : Char :=
  if n < 10 then Char.ofNat ('0'.toNat + n) else Char.ofNat ('A'.toNat + (n - 10))

def group (octet : UInt8) : List Char :=
  [upperDigit (octet.toNat / 16), upperDigit (octet.toNat % 16)]

def text (mac : Mac) : String :=
  String.ofList ([':'].intercalate (mac.octets.toList.map group))

end Mac

end PanelRelay.Device
