import PanelRelay.Xml.Character

/-! Names of elements and attributes: a base, behind a qualifier and a colon if it has one. -/

namespace PanelRelay.Xml

structure Name where
  qualifier : Option String := none
  base : String
  deriving DecidableEq, Repr

namespace Name

def plain (base : String) : Name where
  base := base

def qualified (qualifier base : String) : Name where
  qualifier := some qualifier
  base := base

def chars (name : Name) : List Char :=
  match name.qualifier with
  | none => name.base.toList
  | some qualifier => qualifier.toList ++ ':' :: name.base.toList

/-- At most one colon, with something on either side. -/
def ofChars? (chars : List Char) : Option Name :=
  let first := chars.takeWhile (· ≠ ':')
  match chars.dropWhile (· ≠ ':') with
  | [] => if first = [] then none else some (plain (String.ofList first))
  | _ :: second =>
      if first = [] ∨ second = [] ∨ ':' ∈ second then none
      else some (qualified (String.ofList first) (String.ofList second))

end Name

def extendName? (name : List Char) (c : Char) : Option (List Char) :=
  if (if name = [] then isNameStart c else isNameChar c) then some (c :: name) else none

def Name.take? (text : List Char) : Option (Name × List Char) :=
  if text.head?.any isNameStart then
    (ofChars? (text.takeWhile isNameChar)).map (·, text.dropWhile isNameChar)
  else none

def afterColon (text : String) : String :=
  String.ofList (text.toList.reverse.takeWhile (· ≠ ':')).reverse

end PanelRelay.Xml
