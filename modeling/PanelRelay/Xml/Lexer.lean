import PanelRelay.Xml.Character
import PanelRelay.Xml.Token

/-!
Cutting a text into tokens, one character after the other. Which tokens there are depends on what the
lexer is in: a slash, for instance, is plain in a comment. Of a mark that turns out to be none, what
was read so far becomes characters, and the text goes on behind them.
-/

namespace PanelRelay.Xml

inductive Mode where
  | text
  | doctype
  | declaration
  | quoted (quote : Quote)
  | comment
  | cdata
  | instruction
  | angle
  | exclamation
  | hyphen
  /-- In a mark of which some characters are still to come. -/
  | spelling (mark : Token) (rest : List Char)
  | slash
  | bracket
  | brackets
  | cdataBracket
  | cdataBrackets
  | commentHyphen
  | commentHyphens
  | questionMark
  deriving DecidableEq

structure Lexer where
  mode : Mode := .text
  /-- Whether a document type declaration is what markup goes back to. -/
  inDoctype : Bool := false
  deriving DecidableEq

namespace Lexer

def enter (lexer : Lexer) (mode : Mode) : Lexer :=
  { lexer with mode }

def leave (lexer : Lexer) : Lexer :=
  lexer.enter (if lexer.inDoctype then .doctype else .text)

def text (lexer : Lexer) (c : Char) : List Token × Lexer :=
  if c = '<' then ([], lexer.enter .angle)
  else if c = '/' then ([], lexer.enter .slash)
  else if c = ']' then ([], lexer.enter .bracket)
  else ([Token.ofChar c], lexer.enter .text)

/-- A document type declaration ends at the first bracket that is not part of other markup. -/
def doctype (lexer : Lexer) (c : Char) : List Token × Lexer :=
  if c = '<' then ([], lexer.enter .angle)
  else if c = '>' then ([.tagEnd], {})
  else if c = '=' then ([.char c], lexer.enter .doctype)
  else ([Token.ofChar c], lexer.enter .doctype)

def outer (lexer : Lexer) (c : Char) : List Token × Lexer :=
  if lexer.inDoctype then lexer.doctype c else lexer.text c

/-- In an instruction every special character is a token by itself. -/
def instruction (lexer : Lexer) (c : Char) : List Token × Lexer :=
  if c = '?' then ([], lexer.enter .questionMark)
  else if c = '<' then ([.tagStart], lexer.enter .instruction)
  else if c = '/' then ([.endTagStart], lexer.enter .instruction)
  else ([Token.ofChar c], lexer.enter .instruction)

def comment (lexer : Lexer) (c : Char) : List Token × Lexer :=
  if c = '-' then ([], lexer.enter .commentHyphen)
  else ([.char c], lexer.enter .comment)

def cdata (lexer : Lexer) (c : Char) : List Token × Lexer :=
  if c = ']' then ([], lexer.enter .cdataBracket)
  else ([.char c], lexer.enter .cdata)

def declaration? (lexer : Lexer) (c : Char) : Option (List Token × Lexer) :=
  if c = '<' then none
  else if c = '>' then some ([.tagEnd], lexer.enter .doctype)
  else if c = '=' then some ([.char c], lexer.enter .declaration)
  else
    match Token.ofChar c with
    | .quote quote => some ([.quote quote], lexer.enter (.quoted quote))
    | token => some ([token], lexer.enter .declaration)

def quoted (lexer : Lexer) (quote : Quote) (c : Char) : List Token × Lexer :=
  if c = quote.char then ([.quote quote], lexer.enter .declaration)
  else ([.char c], lexer.enter (.quoted quote))

def behind (tokens : List Token) (scanned : List Token × Lexer) : List Token × Lexer :=
  (tokens ++ scanned.1, scanned.2)

def angle? (lexer : Lexer) (c : Char) : Option (List Token × Lexer) :=
  if c = '?' then some ([.instructionStart], lexer.enter .instruction)
  else if c = '/' then some ([.endTagStart], lexer.leave)
  else if c = '!' then some ([], lexer.enter .exclamation)
  else if isBlank c || isNameChar c then some (behind [.tagStart] (lexer.outer c))
  else none

/-- Declarations stand in a document type declaration only. -/
def exclamation? (lexer : Lexer) (c : Char) : Option (List Token × Lexer) :=
  if c = '-' then some ([], lexer.enter .hyphen)
  else if c = '[' then
    some ([], lexer.enter (.spelling .cdataStart ['C', 'D', 'A', 'T', 'A', '[']))
  else if c = 'D' then
    some ([], lexer.enter (.spelling .doctypeStart ['O', 'C', 'T', 'Y', 'P', 'E']))
  else if lexer.inDoctype && (c = 'E' || c = 'A' || c = 'N') then
    (lexer.declaration? c).map (behind [.declarationStart])
  else none

def opened (lexer : Lexer) (mark : Token) : Lexer :=
  match mark with
  | .doctypeStart => { mode := .doctype, inDoctype := true }
  | _ => lexer.enter .cdata

def spelling? (lexer : Lexer) (mark : Token) (rest : List Char) (c : Char) :
    Option (List Token × Lexer) :=
  match rest with
  | [] => none
  | [last] => if c = last then some ([mark], lexer.opened mark) else none
  | next :: rest => if c = next then some ([], lexer.enter (.spelling mark rest)) else none

/-- The tokens that a character completes; no value for one that cannot stand where it does. -/
def scan? (lexer : Lexer) (c : Char) : Option (List Token × Lexer) :=
  match lexer.mode with
  | .text => some (lexer.text c)
  | .doctype => some (lexer.doctype c)
  | .declaration => lexer.declaration? c
  | .quoted quote => some (lexer.quoted quote c)
  | .comment => some (lexer.comment c)
  | .cdata => some (lexer.cdata c)
  | .instruction => some (lexer.instruction c)
  | .angle => lexer.angle? c
  | .exclamation => lexer.exclamation? c
  | .hyphen => if c = '-' then some ([.commentStart], lexer.enter .comment) else none
  | .spelling mark rest => lexer.spelling? mark rest c
  | .slash =>
      if c = '>' then some ([.emptyTagEnd], lexer.leave)
      else some (behind [.char '/'] (lexer.outer c))
  | .bracket =>
      if c = ']' then some ([], lexer.enter .brackets)
      else some (behind [.char ']'] (lexer.text c))
  | .brackets =>
      if c = '>' then some ([.cdataEnd], lexer.enter .text)
      else if c = ']' then some ([.char ']'], lexer)
      else some (behind [.char ']', .char ']'] (lexer.text c))
  | .cdataBracket =>
      if c = ']' then some ([], lexer.enter .cdataBrackets)
      else some (behind [.char ']'] (lexer.cdata c))
  | .cdataBrackets =>
      if c = '>' then some ([.cdataEnd], lexer.enter .text)
      else if c = ']' then some ([.char ']'], lexer)
      else some (behind [.char ']', .char ']'] (lexer.cdata c))
  | .commentHyphen =>
      if c = '-' then some ([], lexer.enter .commentHyphens)
      else some (behind [.char '-'] (lexer.comment c))
  | .commentHyphens => if c = '>' then some ([.commentEnd], lexer.leave) else none
  | .questionMark =>
      if c = '>' then some ([.instructionEnd], lexer.leave)
      else some (behind [.char '?'] (lexer.instruction c))

end Lexer

end PanelRelay.Xml
