import PanelRelay.Text.Blank

/-! The tokens of a document: single characters, and the marks that begin and end its markup. -/

namespace PanelRelay.Xml

inductive Quote where
  | single
  | double
  deriving DecidableEq

def Quote.char : Quote → Char
  | .single => '\''
  | .double => '"'

inductive Token where
  | char (c : Char)
  | quote (quote : Quote)
  | equals
  | ampersand
  | semicolon
  | tagStart
  | endTagStart
  | tagEnd
  | emptyTagEnd
  | instructionStart
  | instructionEnd
  | commentStart
  | commentEnd
  | cdataStart
  | cdataEnd
  | doctypeStart
  | declarationStart
  deriving DecidableEq

/-- What a token is written as; it stands for this where it is no markup. -/
def Token.chars : Token → List Char
  | .char c => [c]
  | .quote mark => [mark.char]
  | .equals => ['=']
  | .ampersand => ['&']
  | .semicolon => [';']
  | .tagStart => ['<']
  | .endTagStart => ['<', '/']
  | .tagEnd => ['>']
  | .emptyTagEnd => ['/', '>']
  | .instructionStart => ['<', '?']
  | .instructionEnd => ['?', '>']
  | .commentStart => ['<', '!', '-', '-']
  | .commentEnd => ['-', '-', '>']
  | .cdataStart => ['<', '!', '[', 'C', 'D', 'A', 'T', 'A', '[']
  | .cdataEnd => [']', ']', '>']
  | .doctypeStart => ['<', '!', 'D', 'O', 'C', 'T', 'Y', 'P', 'E']
  | .declarationStart => ['<', '!']

def Token.ofChar : Char → Token
  | '>' => .tagEnd
  | '=' => .equals
  | '"' => .quote .double
  | '\'' => .quote .single
  | '&' => .ampersand
  | ';' => .semicolon
  | c => .char c

end PanelRelay.Xml
