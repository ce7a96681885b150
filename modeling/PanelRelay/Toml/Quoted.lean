import PanelRelay.Text.Blank
import PanelRelay.Text.Radix
import PanelRelay.Text.Split

/-! Values and keys between quotes. -/

namespace PanelRelay.Toml

structure Style where
  quote : Char
  /-- Three quotes at either end; the text may then span lines. -/
  isLong : Bool

/-- In double quotes a backslash starts an escape. -/
def Style.hasEscapes (style : Style) : Bool :=
  style.quote = '"'

def shortEscape? : Char → Option Char
  | 'b' => some '\x08'
  | 't' => some '\t'
  | 'n' => some '\n'
  | 'f' => some '\x0c'
  | 'r' => some '\r'
  | 'e' => some '\x1b'
  | '"' => some '"'
  | '\\' => some '\\'
  | _ => none

def takeCodePoint? (width : Nat) (text : List Char) : Option (Char × List Char) := do
  let digits := text.take width
  let n ← if digits.length = width then numeral? 16 digits else none
  if h : n.isValidChar then some (Char.ofNatAux n h, text.drop width) else none

def takeEscape? : List Char → Option (Char × List Char)
  | 'x' :: text => takeCodePoint? 2 text
  | 'u' :: text => takeCodePoint? 4 text
  | 'U' :: text => takeCodePoint? 8 text
  | c :: text => (shortEscape? c).map (·, text)
  | [] => none

/-- The line break at the start of a text, in one of its two forms, is left out. -/
def afterNewline? : List Char → Option (List Char)
  | '\n' :: rest => some rest
  | '\r' :: '\n' :: rest => some rest
  | _ => none

/-- A backslash at the end of a line takes the layout up to the next text with it. -/
def skipLineEnd? (text : List Char) : Option (List Char) :=
  (afterNewline? (text.dropWhile isLayout)).map fun rest => rest.dropWhile isBlank

/-- Up to two quotes may precede the three that end a long text. -/
def takeQuoteRun? (style : Style) (text : List Char) : Option (List Char × List Char) :=
  let run := (text.takeWhile (· = style.quote)).length
  if run < 3 then none
  else some (List.replicate (min run 5 - 3) style.quote, text.drop (min run 5))

def quotedBody? (style : Style) (text : List Char) : Option (List Char × List Char) :=
  match text with
  | [] => none
  | c :: rest =>
      if c = style.quote then
        if style.isLong then
          match takeQuoteRun? style text with
          | some taken => some taken
          | none => (quotedBody? style rest).map fun taken => (c :: taken.1, taken.2)
        else some ([], rest)
      else if c = '\\' && style.hasEscapes then
        match if style.isLong then skipLineEnd? rest else none with
        | some rest' =>
            if _ : rest'.length < (c :: rest).length then quotedBody? style rest' else none
        | none =>
            match progress? (c :: rest) (takeEscape? rest) with
            | none => none
            | some (escaped, ⟨rest', _⟩) =>
                (quotedBody? style rest').map fun taken => (escaped :: taken.1, taken.2)
      else if (c = '\n' || c = '\r') && !style.isLong then none
      else (quotedBody? style rest).map fun taken => (c :: taken.1, taken.2)
termination_by text.length
decreasing_by all_goals simp only [List.length_cons] at *; omega

def dropNewline (text : List Char) : List Char :=
  (afterNewline? text).getD text

def takeQuoted? : List Char → Option (List Char × List Char)
  | '"' :: '"' :: '"' :: text => quotedBody? { quote := '"', isLong := true } (dropNewline text)
  | '\'' :: '\'' :: '\'' :: text =>
      quotedBody? { quote := '\'', isLong := true } (dropNewline text)
  | '"' :: text => quotedBody? { quote := '"', isLong := false } text
  | '\'' :: text => quotedBody? { quote := '\'', isLong := false } text
  | _ => none

def isBareKeyChar (c : Char) : Bool :=
  c.isAlphanum || c = '-' || c = '_'

def takeKey? : List Char → Option (String × List Char)
  | '"' :: text =>
      (quotedBody? { quote := '"', isLong := false } text).map fun taken =>
        (String.ofList taken.1, taken.2)
  | '\'' :: text =>
      (quotedBody? { quote := '\'', isLong := false } text).map fun taken =>
        (String.ofList taken.1, taken.2)
  | text =>
      let key := text.takeWhile isBareKeyChar
      if key = [] then none else some (String.ofList key, text.dropWhile isBareKeyChar)

def skipLayout (text : List Char) : List Char :=
  text.dropWhile isLayout

theorem length_skipLayout (text : List Char) : (skipLayout text).length ≤ text.length :=
  (List.dropWhile_suffix isLayout).length_le

/-- Keys with dots between them, and the layout behind the last one. -/
def takePath? (text : List Char) : Option (List String × List Char) :=
  match progress? text (takeKey? text) with
  | none => none
  | some (key, ⟨rest, _⟩) =>
      match hrest : skipLayout rest with
      | '.' :: rest' =>
          have := length_of_dropWhile hrest
          have := length_skipLayout rest'
          (takePath? (skipLayout rest')).map fun taken => (key :: taken.1, taken.2)
      | rest' => some ([key], rest')
termination_by text.length
decreasing_by simp only [List.length_cons] at *; omega

/-- How many keys may follow each other, and how many values may be nested in each other. -/
def maxDepth : Nat := 80

def takeKeys? (text : List Char) : Option (List String × List Char) :=
  (takePath? text).filter fun taken => taken.1.length ≤ maxDepth

end PanelRelay.Toml
