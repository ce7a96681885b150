import PanelRelay.Xml.Node
import PanelRelay.Xml.Reference
import PanelRelay.Xml.Token

/-!
Start tags. Behind the name stand attributes, each after a blank at least; blanks may also surround
the equals sign and precede the end of the tag.
-/

namespace PanelRelay.Xml

/-- A value of an attribute that is being read; its characters stand in reverse. -/
structure OpenValue where
  tag : Tag
  name : Name
  quote : Quote
  chars : List Char := []

/-- How far a start tag has been read. Incomplete names stand in reverse. -/
inductive StartTag where
  | tagName (name : List Char)
  | inside (tag : Tag)
  | attributeName (tag : Tag) (name : List Char)
  | beforeEquals (tag : Tag) (name : Name)
  | beforeValue (tag : Tag) (name : Name)
  | inValue (value : OpenValue)
  | afterValue (tag : Tag)

namespace OpenValue

def append (value : OpenValue) (text : List Char) : OpenValue :=
  { value with chars := text.reverse ++ value.chars }

def close (value : OpenValue) : Tag :=
  { value.tag with
    attributes := value.tag.attributes ++
      [{ name := value.name, value := String.ofList value.chars.reverse }] }

end OpenValue

namespace StartTag

inductive Step where
  | more (start : StartTag)
  | reference (value : OpenValue)
  /-- The end of the tag, and whether it closes the element as well. -/
  | finish (tag : Tag) (closed : Bool)

/-- No two attributes may share a full name. -/
def finish? (tag : Tag) (closed : Bool) : Option Step :=
  if (tag.ordinary.map Attribute.name).Nodup then some (.finish tag closed) else none

def acceptTagName? (name : List Char) (token : Token) : Option Step :=
  match token with
  | .char c =>
      if isBlank c then
        (Name.ofChars? name.reverse).map fun name => .more (.inside { name })
      else (extendName? name c).map fun name => .more (.tagName name)
  | .tagEnd => (Name.ofChars? name.reverse).bind fun name => finish? { name } false
  | .emptyTagEnd => (Name.ofChars? name.reverse).bind fun name => finish? { name } true
  | _ => none

def acceptInside? (tag : Tag) (token : Token) : Option Step :=
  match token with
  | .char c =>
      if isBlank c then some (.more (.inside tag))
      else (extendName? [] c).map fun name => .more (.attributeName tag name)
  | .tagEnd => finish? tag false
  | .emptyTagEnd => finish? tag true
  | _ => none

def acceptAttributeName? (tag : Tag) (name : List Char) (token : Token) : Option Step :=
  match token with
  | .char c =>
      if isBlank c then
        (Name.ofChars? name.reverse).map fun name => .more (.beforeEquals tag name)
      else (extendName? name c).map fun name => .more (.attributeName tag name)
  | .equals => (Name.ofChars? name.reverse).map fun name => .more (.beforeValue tag name)
  | _ => none

/--
Markup that has no place in a value counts as text there, except for the start of a tag or of an
instruction.
-/
def acceptValue? (version : Version) (value : OpenValue) (token : Token) : Option Step :=
  match token with
  | .char c => if version.allowsLiteral c then some (.more (.inValue (value.append [c]))) else none
  | .quote quote =>
      if quote = value.quote then some (.more (.afterValue value.close))
      else some (.more (.inValue (value.append token.chars)))
  | .ampersand => some (.reference value)
  | .tagStart => none
  | .instructionStart => none
  | token => some (.more (.inValue (value.append token.chars)))

def accept? (version : Version) (start : StartTag) (token : Token) : Option Step :=
  match start with
  | .tagName name => acceptTagName? name token
  | .inside tag => acceptInside? tag token
  | .attributeName tag name => acceptAttributeName? tag name token
  | .beforeEquals tag name =>
      match token with
      | .char c => if isBlank c then some (.more start) else none
      | .equals => some (.more (.beforeValue tag name))
      | _ => none
  | .beforeValue tag name =>
      match token with
      | .char c => if isBlank c then some (.more start) else none
      | .quote quote => some (.more (.inValue { tag, name, quote }))
      | _ => none
  | .inValue value => acceptValue? version value token
  | .afterValue tag =>
      match token with
      | .char c => if isBlank c then some (.more (.inside tag)) else none
      | .tagEnd => finish? tag false
      | .emptyTagEnd => finish? tag true
      | _ => none

end StartTag

end PanelRelay.Xml
