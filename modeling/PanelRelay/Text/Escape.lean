import PanelRelay.Text.Unprintable

/-! Spelling of texts inside diagnostics. -/

namespace PanelRelay

def codePointEscape (c : Char) : List Char :=
  ['\\', 'u', '{'] ++ Nat.toDigits 16 c.toNat ++ ['}']

def escapeChar : Char → List Char
  | '\t' => ['\\', 't']
  | '\r' => ['\\', 'r']
  | '\n' => ['\\', 'n']
  | '\'' => ['\\', '\'']
  | '"' => ['\\', '"']
  | '\\' => ['\\', '\\']
  | c => if ' ' ≤ c ∧ c ≤ '~' then [c] else codePointEscape c

def escape (text : String) : String :=
  String.ofList (text.toList.flatMap escapeChar)

def quoteChar : Char → List Char
  | '\x00' => ['\\', '0']
  | '\t' => ['\\', 't']
  | '\r' => ['\\', 'r']
  | '\n' => ['\\', 'n']
  | '"' => ['\\', '"']
  | '\\' => ['\\', '\\']
  | c => if isUnprintable c then codePointEscape c else [c]

/-- A text between double quotes; what a terminal can show stays as it is. -/
def quote (text : String) : String :=
  String.ofList ('"' :: text.toList.flatMap quoteChar ++ ['"'])

end PanelRelay
