import PanelRelay.Text.Split
import PanelRelay.Text.Utf16
import PanelRelay.Text.Utf8
import PanelRelay.Xml.Reference

/-!
From octets to text. A mark at the very start tells the encoding; without one the text is UTF-8, and
the declaration may name another encoding for what comes after it. Where both tell it, they have to
agree.
-/

namespace PanelRelay.Xml

inductive Encoding where
  | utf8
  | utf16
  | latin1
  | ascii
  deriving DecidableEq

/-- Whether two texts agree as far as the shorter one goes; the second one in either case. -/
def agrees (label name : List Char) : Bool :=
  (label.zip name).all fun (c, d) => c = d.toLower

/-- The first label that agrees with a name tells its encoding. -/
def Encoding.ofName? (name : String) : Option Encoding :=
  ([("utf-8", Encoding.utf8), ("utf8", .utf8), ("iso-8859-1", .latin1), ("latin1", .latin1),
      ("utf-16", .utf16), ("utf16", .utf16), ("ascii", .ascii), ("us-ascii", .ascii)].find?
    fun entry => agrees entry.1.toList name.toList).map Prod.snd

structure Declaration where
  version : Version := .v10
  encoding : Option Encoding := none

namespace Declaration

def takeValue? (version : Version) (quote : Char) (text : List Char) :
    Option (List Char × List Char) :=
  match text with
  | [] => none
  | c :: rest =>
      if c = quote then some ([], rest)
      else if c = '<' then none
      else if c = '&' then
        match hbody : rest.dropWhile (· ≠ ';') with
        | [] => none
        | _ :: rest' =>
            have := length_of_dropWhile hbody
            match Reference.ofText? version (rest.takeWhile (· ≠ ';')) with
            | some (.char c) =>
                (takeValue? version quote rest').map fun taken => (c :: taken.1, taken.2)
            | _ => none
      else if version.allowsLiteral c then
        (takeValue? version quote rest).map fun taken => (c :: taken.1, taken.2)
      else none
termination_by text.length
decreasing_by all_goals simp only [List.length_cons] at *; omega

def takeAssigned? (version : Version) (text : List Char) : Option (String × List Char) :=
  match skipBlanks text with
  | '=' :: text =>
      match skipBlanks text with
      | '"' :: text =>
          (takeValue? version '"' text).map fun taken => (String.ofList taken.1, taken.2)
      | '\'' :: text =>
          (takeValue? version '\'' text).map fun taken => (String.ofList taken.1, taken.2)
      | _ => none
  | _ => none

/--
A field behind a blank, if there is one that starts with a letter. Behind this letter its name may
have a qualifier, which counts for nothing.
-/
def takeField? (initial : Char) (base : String) (version : Version) (text : List Char) :
    Option (Option String × List Char) :=
  if text.head?.any isBlank then
    match skipBlanks text with
    | c :: rest =>
        if c = initial then
          match Name.take? rest with
          | some (name, rest) =>
              if name.base = base then
                (takeAssigned? version rest).map fun taken => (some taken.1, taken.2)
              else none
          | none => none
        else some (none, text)
    | [] => some (none, text)
  else some (none, text)

def version? (value : String) : Option Version :=
  if value = "1.0" then some .v10
  else if value = "1.1" then some .v11
  else none

def encoding? : Option String → Option (Option Encoding)
  | none => some none
  | some name => (Encoding.ofName? name).map some

def isStandalone (value : String) : Bool :=
  value = "yes" || value = "no"

def ofChars? (text : List Char) : Option Declaration := do
  let (version, text) ← takeField? 'v' "ersion" .v10 text
  let version ← version.bind version?
  let (encoding, text) ← takeField? 'e' "ncoding" version text
  let encoding ← encoding? encoding
  let (standalone, text) ← takeField? 's' "tandalone" version text
  if standalone.all isStandalone ∧ skipBlanks text = [] then some { version, encoding } else none

def isAt : List Char → Bool
  | '<' :: '?' :: 'x' :: 'm' :: 'l' :: c :: _ => isBlank c
  | _ => false

end Declaration

def latin1 (octets : List UInt8) : List Char :=
  octets.map fun octet => Char.ofNat octet.toNat

def ascii? (octets : List UInt8) : Option (List Char) :=
  if octets.all (· < 128) then some (latin1 octets) else none

def utf8? (octets : List UInt8) : Option (List Char) :=
  (Utf8.decode? octets).map String.toList

/-- Decodes text that no mark precedes; UTF-16 is recognised by its mark only. -/
def decodeUnmarked? (octets : List UInt8) : Encoding → Option (List Char)
  | .utf8 => utf8? octets
  | .latin1 => some (latin1 octets)
  | .ascii => ascii? octets
  | .utf16 => none

def marked? (encoding : Encoding) (text : List Char) : Option (Declaration × List Char) :=
  if Declaration.isAt text then do
    let (chars, rest) ← cut? ['?', '>'] (text.drop 5)
    let declaration ← Declaration.ofChars? chars
    if declaration.encoding.all (· = encoding) then some (declaration, rest) else none
  else some ({}, text)

def unmarked? (octets : List UInt8) : Option (Declaration × List Char) :=
  if Declaration.isAt (latin1 (octets.take 6)) then do
    let (declared, rest) ← cut? [0x3f, 0x3e] (octets.drop 5)
    let declaration ← Declaration.ofChars? (← utf8? declared)
    let text ← decodeUnmarked? rest (declaration.encoding.getD .utf8)
    return (declaration, text)
  else (utf8? octets).map fun text => ({}, text)

def declared? (octets : List UInt8) : Option (Declaration × List Char) :=
  match octets with
  | 0xfe :: 0xff :: rest => (Utf16.decode? .bigEndian rest).bind (marked? .utf16)
  | 0xff :: 0xfe :: rest => (Utf16.decode? .littleEndian rest).bind (marked? .utf16)
  | 0xef :: 0xbb :: 0xbf :: rest => (utf8? rest).bind (marked? .utf8)
  | _ => unmarked? octets

end PanelRelay.Xml
