import PanelRelay.Xml.Node

/-!
Qualifiers stand for namespaces. Each one in use has to be bound, by a declaration on the element
itself or around it, and the reserved ones keep their meaning.
-/

namespace PanelRelay.Xml

def xmlUri : String := "http://www.w3.org/XML/1998/namespace"

def xmlnsUri : String := "http://www.w3.org/2000/xmlns/"

def boundEverywhere : List String :=
  ["xml", "xmlns"]

/-- Whether a qualifier, or the empty one for the default namespace, may stand for a URI. -/
def mayDeclare (qualifier uri : String) : Bool :=
  if qualifier = "" then uri ∉ ["xml", "xmlns", xmlUri, xmlnsUri]
  else if qualifier = "xmlns" then false
  else if qualifier = "xml" then uri = xmlUri
  else uri ≠ ""

namespace Tag

def bound (tag : Tag) (outer : List String) : List String :=
  tag.attributes.filterMap Attribute.declared? ++ outer

def isBound (tag : Tag) (outer : List String) : Bool :=
  let scope := tag.bound outer
  tag.attributes.all (fun item => item.declared?.all fun qualifier =>
      mayDeclare qualifier item.value) &&
    tag.name.qualifier.all (fun qualifier =>
      qualifier ∉ boundEverywhere && qualifier ∈ scope) &&
    tag.ordinary.all fun item => item.name.qualifier.all fun qualifier => qualifier ∈ scope

end Tag

mutual

def Node.isBound (outer : List String) : Node → Bool
  | .element tag children => tag.isBound outer && areBound (tag.bound outer) children
  | _ => true

def areBound (outer : List String) : List Node → Bool
  | [] => true
  | node :: nodes => node.isBound outer && areBound outer nodes

end

def Element.isBound (element : Element) : Bool :=
  (Node.element element.tag element.children).isBound boundEverywhere

end PanelRelay.Xml
