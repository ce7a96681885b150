import PanelRelay.Text.Radix
import PanelRelay.Xml.Name

/-!
References, from the ampersand to the semicolon. A reference denotes a character, by its code point
or by one of five names that every document knows, or an entity that the document declares itself.
-/

namespace PanelRelay.Xml

inductive Reference where
  | char (c : Char)
  | entity (name : String)
  deriving DecidableEq

abbrev Entities := List (String × List Char)

namespace Reference

def predefined : List (String × Char) :=
  [("lt", '<'), ("gt", '>'), ("amp", '&'), ("apos", '\''), ("quot", '"')]

/-- A numeral, before which a plus sign may stand. -/
def positive? (base : Nat) : List Char → Option Nat
  | '+' :: digits => numeral? base digits
  | digits => numeral? base digits

/-- Behind the number sign: a code point in decimals, or in hexadecimals after an `x`. -/
def codePoint? : List Char → Option Nat
  | 'x' :: digits => positive? 16 digits
  | digits => positive? 10 digits

def charOfCodePoint? (version : Version) (n : Nat) : Option Char :=
  if h : n.isValidChar then
    let c := Char.ofNatAux n h
    if version.allows c then some c else none
  else none

def char? (version : Version) (code : List Char) : Option Char :=
  (codePoint? code).bind (charOfCodePoint? version)

def ofChars? (version : Version) : List Char → Option Reference
  | [] => none
  | '#' :: code => (char? version code).map .char
  | name =>
      match predefined.lookup (String.ofList name) with
      | some c => some (.char c)
      | none => some (.entity (String.ofList name))

def extend? (reference : List Char) (c : Char) : Option (List Char) :=
  if reference = [] ∧ c = '#' then some [c] else extendName? reference c

def ofText? (version : Version) (text : List Char) : Option Reference := do
  ofChars? version (← text.foldlM extend? []).reverse

end Reference

end PanelRelay.Xml
