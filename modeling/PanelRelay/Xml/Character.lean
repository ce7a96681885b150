import PanelRelay.Text.Blank

/-! Which characters documents may hold, and which of them make up names. -/

namespace PanelRelay.Xml

inductive Version where
  | v10
  | v11
  deriving DecidableEq

/-- Characters that a document may denote, by a reference at least. -/
def Version.allows (version : Version) (c : Char) : Bool :=
  let n := c.toNat
  match version with
  | .v10 => c = '\t' || c = '\n' || c = '\r' || (0x20 ≤ n && n ≠ 0xfffe && n ≠ 0xffff)
  | .v11 => 1 ≤ n && n ≠ 0xfffe && n ≠ 0xffff

/-- Characters that may stand in a document as themselves. -/
def Version.allowsLiteral (version : Version) (c : Char) : Bool :=
  let n := c.toNat
  match version with
  | .v10 => Version.v10.allows c
  | .v11 => Version.v11.allows c && !(n < 0x9 || n = 0xb || n = 0xc || (0xe ≤ n && n < 0x20) ||
      (0x7f ≤ n && n ≤ 0x84) || (0x86 ≤ n && n ≤ 0x9f))

def nameStartRuns : List (Nat × Nat) :=
  [(0x3a, 0x3a), (0x41, 0x5a), (0x5f, 0x5f), (0x61, 0x7a), (0xc0, 0xd6), (0xd8, 0xf6),
    (0xf8, 0x2ff), (0x370, 0x37d), (0x37f, 0x1fff), (0x200c, 0x200d), (0x2070, 0x218f),
    (0x2c00, 0x2fef), (0x3001, 0xd7ff), (0xf900, 0xfdcf), (0xfdf0, 0xfffd), (0x10000, 0xeffff)]

def nameRuns : List (Nat × Nat) :=
  [(0x2d, 0x2e), (0x30, 0x39), (0xb7, 0xb7), (0x300, 0x3f6), (0x203f, 0x2040)]

def isNameStart (c : Char) : Bool :=
  nameStartRuns.any fun run => run.1 ≤ c.toNat && c.toNat ≤ run.2

def isNameChar (c : Char) : Bool :=
  isNameStart c || nameRuns.any fun run => run.1 ≤ c.toNat && c.toNat ≤ run.2

def skipBlanks (text : List Char) : List Char :=
  text.dropWhile isBlank

end PanelRelay.Xml
