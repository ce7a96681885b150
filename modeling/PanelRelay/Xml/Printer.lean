import PanelRelay.Xml.Node

/-!
Writing a tree. Elements stand on lines of their own, two spaces further in than their parent; an
element that carries text stands on one line with it, and one without content closes itself.
-/

namespace PanelRelay.Xml

def escapeTextChar : Char → List Char
  | '<' => ['&', 'l', 't', ';']
  | '>' => ['&', 'g', 't', ';']
  | '&' => ['&', 'a', 'm', 'p', ';']
  | c => [c]

def escapeAttributeChar : Char → List Char
  | '"' => ['&', 'q', 'u', 'o', 't', ';']
  | '\'' => ['&', 'a', 'p', 'o', 's', ';']
  | '\n' => ['&', '#', 'x', 'A', ';']
  | '\r' => ['&', '#', 'x', 'D', ';']
  | c => escapeTextChar c

def escapeText (text : String) : List Char :=
  text.toList.flatMap escapeTextChar

def Attribute.print (item : Attribute) : List Char :=
  ' ' :: item.name.chars ++ '=' :: '"' :: item.value.toList.flatMap escapeAttributeChar ++ ['"']

/-- Name and attributes, as they stand in a start tag. -/
def Tag.print (tag : Tag) : List Char :=
  tag.name.chars ++ tag.attributes.flatMap Attribute.print

def Tag.printOpen (tag : Tag) : List Char :=
  '<' :: tag.print ++ ['>']

def Tag.printEmpty (tag : Tag) : List Char :=
  '<' :: tag.print ++ [' ', '/', '>']

def Tag.printClose (tag : Tag) : List Char :=
  '<' :: '/' :: tag.name.chars ++ ['>']

def newLine (depth : Nat) : List Char :=
  '\n' :: List.replicate (2 * depth) ' '

def Node.isElement : Node → Bool
  | .element _ _ => true
  | _ => false

mutual

/-- A node at the current place of a line; `depth` indents the lines that it goes on to. -/
def Node.print (depth : Nat) : Node → List Char
  | .text content => escapeText content
  | .cdata content => "<![CDATA[".toList ++ content.toList ++ "]]>".toList
  | .comment content => "<!--".toList ++ content.toList ++ "-->".toList
  | .instruction target data =>
      "<?".toList ++ target.toList ++ data.elim [] (fun data => ' ' :: data.toList) ++ "?>".toList
  | .element tag [] => tag.printEmpty
  | .element tag (child :: children) =>
      if (child :: children).all Node.isElement then
        tag.printOpen ++ printLines (depth + 1) (child :: children) ++ newLine depth ++
          tag.printClose
      else tag.printOpen ++ printInline depth (child :: children) ++ tag.printClose

def printLines (depth : Nat) : List Node → List Char
  | [] => []
  | node :: nodes => newLine depth ++ node.print depth ++ printLines depth nodes

def printInline (depth : Nat) : List Node → List Char
  | [] => []
  | node :: nodes => node.print depth ++ printInline depth nodes

end

def Node.document (root : Node) : String :=
  String.ofList ("<?xml version=\"1.0\" encoding=\"UTF-8\"?>\n".toList ++ root.print 0)

end PanelRelay.Xml
