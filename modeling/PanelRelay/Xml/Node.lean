import PanelRelay.Xml.Name

/-! Documents as trees. -/

namespace PanelRelay.Xml

structure Attribute where
  name : Name
  value : String
  deriving DecidableEq, Repr

structure Tag where
  name : Name
  /-- In the order of the text; declarations of namespaces are among them. -/
  attributes : List Attribute := []
  deriving DecidableEq, Repr

inductive Node where
  | element (tag : Tag) (children : List Node)
  | text (content : String)
  | cdata (content : String)
  | comment (content : String)
  | instruction (target : String) (data : Option String)

structure Element where
  tag : Tag
  children : List Node

def Node.element? : Node → Option Element
  | .element tag children => some { tag, children }
  | _ => none

/-- The text that a node itself contributes to the element it stands in. -/
def Node.ownText : Node → List Char
  | .text content => content.toList
  | .cdata content => content.toList
  | _ => []

/-- The prefix that an attribute binds to its value; the empty one for the default namespace. -/
def Attribute.declared? (item : Attribute) : Option String :=
  match item.name.qualifier with
  | none => if item.name.base = "xmlns" then some "" else none
  | some qualifier => if qualifier = "xmlns" then some item.name.base else none

namespace Tag

def ordinary (tag : Tag) : List Attribute :=
  tag.attributes.filter fun item => item.declared?.isNone

/-- Values by base name; of several attributes with one base name the last counts. -/
def values (tag : Tag) : List (String × String) :=
  tag.ordinary.foldl
    (fun values item =>
      values.filter (fun entry => entry.1 ≠ item.name.base) ++ [(item.name.base, item.value)])
    []

/-- Finds a value by base name, whether it is kept under that name or under a qualified one. -/
def value? (tag : Tag) (base : String) : Option String :=
  (tag.values.find? fun entry => entry.1 = base || afterColon entry.1 = base).map Prod.snd

end Tag

namespace Element

def name (element : Element) : String :=
  element.tag.name.base

def elements (element : Element) : List Element :=
  element.children.filterMap Node.element?

def child? (element : Element) (name : String) : Option Element :=
  element.elements.find? fun child => child.name = name

/-- The element's own text, without that of its child elements. -/
def text (element : Element) : String :=
  String.ofList (element.children.flatMap Node.ownText)

end Element

end PanelRelay.Xml
