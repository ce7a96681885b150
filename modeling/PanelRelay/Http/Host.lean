import PanelRelay.Http.Percent
import PanelRelay.Text.Decimal
import PanelRelay.Text.Split

/-! Hosts of URLs: names in lower case, and addresses in their usual notation. -/

namespace PanelRelay.Http

def isForbiddenInHost (c : Char) : Bool :=
  c ≤ ' ' || '~' < c ||
    c ∈ ['#', '/', ':', '<', '>', '?', '@', '[', '\\', ']', '^', '|', '%']

def addressPart? : List Char → Option Nat
  | '0' :: 'x' :: digits => if digits = [] then some 0 else numeral? 16 digits
  | '0' :: digits => if digits = [] then some 0 else numeral? 8 digits
  | digits => numeral? 10 digits

/-- Every part but the last one stands for an octet; the last one fills up what remains. -/
def addressOfParts? : Nat → List Nat → Option Nat
  | _, [] => none
  | octets, [last] => if last < Nat.pow 256 octets then some last else none
  | 0, _ => none
  | octets + 1, part :: parts =>
      if part < 256 then (addressOfParts? octets parts).map (part * Nat.pow 256 octets + ·) else none

def addressText (n : Nat) : List Char :=
  ['.'].intercalate
    ([n / 0x1000000, n / 0x10000 % 256, n / 256 % 256, n % 256].map Decimal.ofNat)

def isNumericLabel (label : List Char) : Bool :=
  label ≠ [] && (label.all Char.isDigit || (addressPart? label).isSome)

def addressOrName? (name : List Char) : Option (List Char) :=
  let labels := splitAtAll (· = '.') name
  let labels := if labels.length > 1 ∧ labels.getLast? = some [] then labels.dropLast else labels
  if labels.getLast?.any isNumericLabel then do
    let parts ← labels.mapM addressPart?
    let address ← addressOfParts? 4 parts
    return addressText address
  else some name

/-- A host as it stands in a normalised URL; an address in brackets is kept as it is. -/
def host? (text : List Char) : Option (List Char) :=
  match text with
  | [] => none
  | '[' :: rest =>
      if rest.getLast? = some ']' ∧ rest.dropLast ≠ [] ∧
          rest.dropLast.all (fun c => (hexDigit? c).isSome || c = ':' || c = '.') then
        some (text.map Char.toLower)
      else none
  | _ => do
      let decoded ← Utf8.decode? (percentDecode text)
      let name := decoded.toList.map Char.toLower
      if name = [] ∨ name.any isForbiddenInHost then none else addressOrName? name

end PanelRelay.Http
