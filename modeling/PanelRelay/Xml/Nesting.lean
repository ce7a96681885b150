import PanelRelay.Xml.Node

/-!
Trees that are being built, from the outside in. Several elements may follow each other at the top.
-/

namespace PanelRelay.Xml

/-- An element that is still open. Its nodes so far stand in reverse. -/
structure Frame where
  tag : Tag
  nodes : List Node := []

namespace Frame

def add (frame : Frame) (node : Node) : Frame :=
  { frame with nodes := node :: frame.nodes }

def close (frame : Frame) : Element where
  tag := frame.tag
  children := frame.nodes.reverse

end Frame

/-- Elements that are open, the innermost first, and the complete ones at the top, in reverse. -/
structure Nesting where
  frames : List Frame := []
  roots : List Element := []

namespace Nesting

def isOpen (nesting : Nesting) : Bool :=
  !nesting.frames.isEmpty

def place (nesting : Nesting) (element : Element) : Nesting :=
  match nesting.frames with
  | [] => { nesting with roots := element :: nesting.roots }
  | frame :: frames =>
      { nesting with frames := frame.add (.element element.tag element.children) :: frames }

/-- A node that is no element. Without an open element it leaves nothing behind. -/
def note (nesting : Nesting) (node : Node) : Nesting :=
  match nesting.frames with
  | [] => nesting
  | frame :: frames => { nesting with frames := frame.add node :: frames }

def start (nesting : Nesting) (tag : Tag) (closed : Bool) : Nesting :=
  if closed then nesting.place { tag, children := [] }
  else { nesting with frames := { tag } :: nesting.frames }

/-- Closes the innermost element, which has to bear the name. -/
def finish? (nesting : Nesting) (name : Name) : Option Nesting :=
  match nesting.frames with
  | [] => none
  | frame :: frames =>
      if frame.tag.name = name then some ({ nesting with frames }.place frame.close) else none

def complete? (nesting : Nesting) : Option (List Element) :=
  match nesting.frames with
  | [] => some nesting.roots.reverse
  | _ :: _ => none

end Nesting

end PanelRelay.Xml
