import PanelRelay.Xml.Doctype
import PanelRelay.Xml.Lexer
import PanelRelay.Xml.Nesting
import PanelRelay.Xml.StartTag

/-!
Reading a document, one token after the other. Text between two pieces of markup makes one node,
unless it is layout, which is dropped. The text of an entity is read in place of the reference to it.
-/

namespace PanelRelay.Xml

/-- What is being read. Incomplete names and texts stand in reverse. -/
inductive Place where
  | content
  | startTag (start : StartTag)
  | endName (name : List Char)
  | endTag (name : Name)
  | reference (reference : List Char)
  | valueReference (value : OpenValue) (reference : List Char)
  | comment (content : List Char)
  | cdata (content : List Char)
  | target (name : List Char)
  | data (target : String) (content : List Char)
  | doctype (place : Doctype)

structure Reader where
  version : Version := .v10
  lexer : Lexer := {}
  place : Place := .content
  nesting : Nesting := {}
  /-- The text since the last piece of markup, in reverse. -/
  run : List Char := []
  /-- Whether that text is layout as far as it goes. -/
  isLayout : Bool := true
  entities : Entities := []
  /-- Whether a document type declaration may still come. -/
  admitsDoctype : Bool := true

namespace Reader

def push (reader : Reader) (c : Char) : Reader :=
  { reader with run := c :: reader.run, isLayout := reader.isLayout && isBlank c }

/-- Adds the text before a piece of markup to the innermost element. -/
def flush (reader : Reader) : Reader :=
  { reader with
    nesting := if reader.isLayout ∨ reader.run = [] then reader.nesting
      else reader.nesting.note (.text (String.ofList reader.run.reverse))
    run := []
    isLayout := true }

def enter (reader : Reader) (place : Place) : Reader :=
  { reader with place }

def note (reader : Reader) (node : Node) : Reader :=
  { reader with nesting := reader.nesting.note node, place := .content }

/-- Tokens that are no markup in content are text, which needs an element around it. -/
def acceptContent? (reader : Reader) (token : Token) : Option Reader :=
  match token with
  | .char c =>
      if reader.nesting.isOpen then
        if reader.version.allowsLiteral c then some (reader.push c) else none
      else if isBlank c then some reader
      else none
  | .tagStart => some { reader.flush with place := .startTag (.tagName []), admitsDoctype := false }
  | .endTagStart => if reader.nesting.isOpen then some (reader.flush.enter (.endName [])) else none
  | .commentStart => some (reader.flush.enter (.comment []))
  | .cdataStart => if reader.nesting.isOpen then some (reader.flush.enter (.cdata [])) else none
  | .instructionStart => some (reader.flush.enter (.target []))
  | .doctypeStart =>
      if reader.admitsDoctype then
        some { reader.flush with place := .doctype .outside, admitsDoctype := false }
      else none
  | .ampersand => if reader.nesting.isOpen then some (reader.enter (.reference [])) else none
  | .cdataEnd => none
  | .declarationStart => none
  | token => if reader.nesting.isOpen then some (token.chars.foldl push reader) else none

def acceptStartTag? (reader : Reader) (start : StartTag) (token : Token) : Option Reader :=
  (start.accept? reader.version token).map fun step =>
    match step with
    | .more start => reader.enter (.startTag start)
    | .reference value => reader.enter (.valueReference value [])
    | .finish tag closed =>
        { reader with nesting := reader.nesting.start tag closed, place := .content }

def finishElement? (reader : Reader) (name : Name) : Option Reader :=
  (reader.nesting.finish? name).map fun nesting => { reader with nesting, place := .content }

def acceptEndName? (reader : Reader) (name : List Char) (token : Token) : Option Reader :=
  match token with
  | .char c =>
      if isBlank c then (Name.ofChars? name.reverse).map fun name => reader.enter (.endTag name)
      else (extendName? name c).map fun name => reader.enter (.endName name)
  | .tagEnd => (Name.ofChars? name.reverse).bind reader.finishElement?
  | _ => none

def acceptEndTag? (reader : Reader) (name : Name) (token : Token) : Option Reader :=
  match token with
  | .char c => if isBlank c then some reader else none
  | .tagEnd => reader.finishElement? name
  | _ => none

/--
A reference in content, and the text of the entity it denotes. An entity at the start of a text keeps
the text from being layout.
-/
def acceptReference? (reader : Reader) (reference : List Char) (token : Token) :
    Option (Reader × List Char) :=
  match token with
  | .char c =>
      (Reference.extend? reference c).map fun reference => (reader.enter (.reference reference), [])
  | .semicolon =>
      match Reference.ofChars? reader.version reference.reverse with
      | some (.char c) => some ((reader.push c).enter .content, [])
      | some (.entity name) =>
          (reader.entities.lookup name).map fun text =>
            ({ reader with isLayout := reader.isLayout && !reader.run.isEmpty, place := .content },
              text)
      | none => none
  | _ => none

/-- The text of an entity is taken over into a value as it is, references in it included. -/
def acceptValueReference? (reader : Reader) (value : OpenValue) (reference : List Char)
    (token : Token) : Option Reader :=
  match token with
  | .char c =>
      (Reference.extend? reference c).map fun reference =>
        reader.enter (.valueReference value reference)
  | .semicolon =>
      match Reference.ofChars? reader.version reference.reverse with
      | some (.char c) => some (reader.enter (.startTag (.inValue (value.append [c]))))
      | some (.entity name) =>
          (reader.entities.lookup name).map fun text =>
            reader.enter (.startTag (.inValue (value.append text)))
      | none => none
  | _ => none

def acceptComment? (reader : Reader) (content : List Char) (token : Token) : Option Reader :=
  match token with
  | .commentEnd => some (reader.note (.comment (String.ofList content.reverse)))
  | .char c =>
      if reader.version.allows c then some (reader.enter (.comment (c :: content))) else none
  | _ => none

/-- Character data other than blanks keeps also the text behind it from being layout. -/
def acceptCdata? (reader : Reader) (content : List Char) (token : Token) : Option Reader :=
  match token with
  | .cdataEnd => some (reader.note (.cdata (String.ofList content.reverse)))
  | .char c =>
      if reader.version.allows c then
        some { reader with
          place := .cdata (c :: content), isLayout := reader.isLayout && isBlank c }
      else none
  | _ => none

def isReserved (target : List Char) : Bool :=
  target.map Char.toLower = ['x', 'm', 'l']

/-- The target of an instruction; it may be missing where a blank comes first. -/
def acceptTarget? (reader : Reader) (name : List Char) (token : Token) : Option Reader :=
  match token with
  | .char c =>
      if isBlank c then
        if isReserved name.reverse then none
        else some (reader.enter (.data (String.ofList name.reverse) []))
      else (extendName? name c).map fun name => reader.enter (.target name)
  | .instructionEnd =>
      if name = [] ∨ isReserved name.reverse then none
      else some (reader.note (.instruction (String.ofList name.reverse) none))
  | _ => none

def acceptData? (reader : Reader) (target : String) (content : List Char) (token : Token) :
    Option Reader :=
  match token with
  | .instructionEnd =>
      some (reader.note (.instruction target (some (String.ofList content.reverse))))
  | .char c =>
      if reader.version.allows c then some (reader.enter (.data target (c :: content))) else none
  | token => some (reader.enter (.data target (token.chars.reverse ++ content)))

/-- Of several entities with one name the first counts. -/
def acceptDoctype? (reader : Reader) (place : Doctype) (token : Token) :
    Option (Reader × List Char) :=
  (place.accept? reader.version reader.entities token).map fun step =>
    match step with
    | .more place => (reader.enter (.doctype place), [])
    | .declare name text =>
        ({ reader with
            entities := reader.entities ++ [(name, text)], place := .doctype .passedOver }, [])
    | .expand text => (reader.enter (.doctype .outside), text)
    | .finish => (reader.enter .content, [])

/-- The reader behind a token, and a text that is to be read before anything else. -/
def accept? (reader : Reader) (token : Token) : Option (Reader × List Char) :=
  match reader.place with
  | .content => (reader.acceptContent? token).map (·, [])
  | .startTag start => (reader.acceptStartTag? start token).map (·, [])
  | .endName name => (reader.acceptEndName? name token).map (·, [])
  | .endTag name => (reader.acceptEndTag? name token).map (·, [])
  | .reference reference => reader.acceptReference? reference token
  | .valueReference value reference =>
      (reader.acceptValueReference? value reference token).map (·, [])
  | .comment content => (reader.acceptComment? content token).map (·, [])
  | .cdata content => (reader.acceptCdata? content token).map (·, [])
  | .target name => (reader.acceptTarget? name token).map (·, [])
  | .data target content => (reader.acceptData? target content token).map (·, [])
  | .doctype place => reader.acceptDoctype? place token

/-- Of the tokens that a character completes only the last can denote an entity. -/
def acceptAll? (reader : Reader) : List Token → Option (Reader × List Char)
  | [] => some (reader, [])
  | token :: tokens => do
      let (reader, text) ← reader.accept? token
      let (reader, more) ← acceptAll? reader tokens
      return (reader, text ++ more)

def step? (reader : Reader) (c : Char) : Option (Reader × List Char) := do
  let (tokens, lexer) ← reader.lexer.scan? c
  { reader with lexer }.acceptAll? tokens

/-- How many entities may be opened before the text of all of them has been read. -/
def maxExpansions : Nat := 10

/-- How much of such text may be left when another entity is opened. -/
def maxPending : Nat := 1000000

/--
Reads a text to its end. Every entity adds to the text, and after so many none may be opened, so that
entities which refer to each other come to an end.
-/
def drain? (reader : Reader) (budget : Nat) (text : List Char) : Option Reader :=
  match text with
  | [] => some reader
  | c :: rest =>
      match reader.step? c with
      | none => none
      | some (reader, []) => drain? reader budget rest
      | some (reader, d :: inserted) =>
          if rest.length > maxPending then none
          else
            match budget with
            | 0 => none
            | budget + 1 => drain? reader budget ((d :: inserted) ++ rest)
termination_by (budget, text.length)

def read? (reader : Reader) (c : Char) : Option Reader :=
  reader.drain? maxExpansions [c]

def readAll? (reader : Reader) (text : List Char) : Option Reader :=
  text.foldlM read? reader

def roots? (reader : Reader) : Option (List Element) :=
  match reader.place with
  | .content => if reader.lexer.mode = .text then reader.nesting.complete? else none
  | _ => none

theorem read?_eq_of_step? {reader next : Reader} {c : Char}
    (h : reader.step? c = some (next, [])) : reader.read? c = some next := by
  simp only [read?, drain?, h]

@[simp] theorem readAll?_nil (reader : Reader) : reader.readAll? [] = some reader :=
  rfl

theorem readAll?_cons (reader : Reader) (c : Char) (text : List Char) :
    reader.readAll? (c :: text) = (reader.read? c).bind fun next => next.readAll? text := by
  simp only [readAll?, List.foldlM_cons]
  rfl

end Reader

end PanelRelay.Xml
