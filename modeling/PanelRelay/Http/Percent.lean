import PanelRelay.Text.Radix
import PanelRelay.Text.Utf8

/-! Characters that a URL cannot hold stand in it as the octets of their UTF-8 form. -/

namespace PanelRelay.Http

def octetEscape (octet : UInt8) : List Char :=
  ['%', (Nat.digitChar (octet.toNat / 16)).toUpper, (Nat.digitChar (octet.toNat % 16)).toUpper]

/-- Escapes what is not printable ASCII, and the further characters of `reserved`. -/
def percentEncode (reserved : List Char) (text : List Char) : List Char :=
  text.flatMap fun c =>
    if c < ' ' ∨ '~' < c ∨ c ∈ reserved then
      (Utf8.encode (String.singleton c)).flatMap octetEscape
    else [c]

def reservedInPath : List Char :=
  [' ', '"', '#', '<', '>', '?', '\x60', '\x7b', '\x7d']

def reservedInQuery : List Char :=
  [' ', '"', '#', '<', '>', '\'']

def reservedInFragment : List Char :=
  [' ', '"', '<', '>', '\x60']

/-- The octets that escaped text stands for; an incomplete escape stands for itself. -/
def percentDecode : List Char → List UInt8
  | [] => []
  | '%' :: high :: low :: rest =>
      match hexDigit? high, hexDigit? low with
      | some high, some low => UInt8.ofNat (high * 16 + low) :: percentDecode rest
      | _, _ => Utf8.encode "%" ++ percentDecode (high :: low :: rest)
  | c :: rest => Utf8.encode (String.singleton c) ++ percentDecode rest

end PanelRelay.Http
