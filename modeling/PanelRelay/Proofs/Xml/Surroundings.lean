import PanelRelay.Proofs.Xml.Alongside
import PanelRelay.Proofs.Xml.Lookup

/-!
What stands around an element. While the rest of a document is read, a complete element stays where
it is, so that two elements in the same place end up in the same surroundings.
-/

namespace PanelRelay.Xml

/-- An element but for one child. -/
structure Layer where
  tag : Tag
  before : List Node
  after : List Node

namespace Layer

def around (layer : Layer) (element : Element) : Element where
  tag := layer.tag
  children := layer.before ++ element.node :: layer.after

/-- The layer as far as it had been read when the child began. -/
def frame (layer : Layer) : Frame where
  tag := layer.tag
  nodes := layer.before.reverse

end Layer

/-- The layer that a frame becomes with the nodes that are read behind the child. -/
def Frame.layer (frame : Frame) (later : List Node) : Layer where
  tag := frame.tag
  before := frame.nodes.reverse
  after := later.reverse

@[simp] theorem Frame.frame_layer (frame : Frame) (later : List Node) :
    (frame.layer later).frame = frame := by
  rw [layer, Layer.frame, List.reverse_reverse]

/-- An element with layers around it, the innermost first. -/
def enclose (layers : List Layer) (element : Element) : Element :=
  layers.foldl (fun inner layer => layer.around inner) element

theorem enclose_append_singleton (layers : List Layer) (layer : Layer) (element : Element) :
    enclose (layers ++ [layer]) element = layer.around (enclose layers element) :=
  List.foldl_append

/-- A frame that holds an element with layers around it is closed to one layer more. -/
theorem Frame.close_around (frame : Frame) (later : List Node) (layers : List Layer)
    (element : Element) :
    close { frame with nodes := later ++ (enclose layers element).node :: frame.nodes } =
      enclose (layers ++ [frame.layer later]) element := by
  rw [enclose_append_singleton]
  simp [close, layer, Layer.around]

namespace Nesting

/--
Two elements in one place within the frames they were read in. Some of these may be closed by now,
and others may have been opened.
-/
inductive Around (left right : Element) (outer : List Frame) : Nesting → Nesting → Prop
  | within {layers : List Layer} {frame : Frame} {frames above : List Frame} {later : List Node}
      (houter : outer = layers.map Layer.frame ++ frame :: frames) :
      Around left right outer
        { frames := above ++ { frame with
            nodes := later ++ (enclose layers left).node :: frame.nodes } :: frames }
        { frames := above ++ { frame with
            nodes := later ++ (enclose layers right).node :: frame.nodes } :: frames }
  | behind {layers : List Layer} {above : List Frame} {later : List Element}
      (houter : outer = layers.map Layer.frame) :
      Around left right outer
        { frames := above, roots := later ++ [enclose layers left] }
        { frames := above, roots := later ++ [enclose layers right] }

namespace Around

variable {left right : Element} {outer : List Frame} {first second : Nesting}

theorem isOpen (h : Around left right outer first second) : first.isOpen = second.isOpen := by
  cases h with
  | @within layers frame frames above later houter => cases above <;> rfl
  | behind houter => rfl

theorem place (h : Around left right outer first second) (element : Element) :
    Around left right outer (first.place element) (second.place element) := by
  cases h with
  | @within layers frame frames above later houter =>
      cases above with
      | nil => exact @within _ _ _ layers frame frames [] (element.node :: later) houter
      | cons top above =>
          exact @within _ _ _ layers frame frames (top.add element.node :: above) later houter
  | @behind layers above later houter =>
      cases above with
      | nil => exact @behind _ _ _ layers [] (element :: later) houter
      | cons top above => exact @behind _ _ _ layers (top.add element.node :: above) later houter

theorem note (h : Around left right outer first second) (node : Node) :
    Around left right outer (first.note node) (second.note node) := by
  cases h with
  | @within layers frame frames above later houter =>
      cases above with
      | nil => exact @within _ _ _ layers frame frames [] (node :: later) houter
      | cons top above =>
          exact @within _ _ _ layers frame frames (top.add node :: above) later houter
  | @behind layers above later houter =>
      cases above with
      | nil => exact @behind _ _ _ layers [] later houter
      | cons top above => exact @behind _ _ _ layers (top.add node :: above) later houter

theorem start (h : Around left right outer first second) (tag : Tag) (closed : Bool) :
    Around left right outer (first.start tag closed) (second.start tag closed) := by
  cases closed with
  | true => exact h.place _
  | false =>
      cases h with
      | @within layers frame frames above later houter =>
          exact @within _ _ _ layers frame frames ({ tag } :: above) later houter
      | @behind layers above later houter =>
          exact @behind _ _ _ layers ({ tag } :: above) later houter

/-- The innermost frame that holds the two elements is closed like any other. -/
theorem close {layers : List Layer} {frame : Frame} {frames : List Frame} (later : List Node)
    (houter : outer = layers.map Layer.frame ++ frame :: frames) :
    Around left right outer
      (({ frames } : Nesting).place
        (Frame.close { frame with nodes := later ++ (enclose layers left).node :: frame.nodes }))
      (({ frames } : Nesting).place
        (Frame.close { frame with nodes := later ++ (enclose layers right).node :: frame.nodes })) := by
  have hlayers : outer = (layers ++ [frame.layer later]).map Layer.frame ++ frames := by
    simp [houter]
  rw [Frame.close_around, Frame.close_around]
  cases frames with
  | nil =>
      exact @behind _ _ _ (layers ++ [frame.layer later]) [] [] (hlayers.trans (List.append_nil _))
  | cons next frames =>
      exact @within _ _ _ (layers ++ [frame.layer later]) next frames [] [] hlayers

theorem finish? (h : Around left right outer first second) (name : Name) :
    Option.Rel (Around left right outer) (first.finish? name) (second.finish? name) := by
  cases h with
  | @within layers frame frames above later houter =>
      cases above with
      | nil =>
          simp only [Nesting.finish?, List.nil_append]
          split
          next => exact .some (close later houter)
          next => exact .none
      | cons top above =>
          have hrest := @within left right _ layers frame frames above later houter
          simp only [Nesting.finish?, List.cons_append]
          split
          next => exact .some (hrest.place top.close)
          next => exact .none
  | @behind layers above later houter =>
      cases above with
      | nil => exact .none
      | cons top above =>
          have hrest := @behind left right _ layers above later houter
          simp only [Nesting.finish?]
          split
          next => exact .some (hrest.place top.close)
          next => exact .none

theorem complete? (h : Around left right outer first second) :
    Option.Rel (fun roots others => ∃ layers later, outer = layers.map Layer.frame ∧
        roots = enclose layers left :: later ∧ others = enclose layers right :: later)
      first.complete? second.complete? := by
  cases h with
  | @within layers frame frames above later houter => cases above <;> exact .none
  | @behind layers above later houter =>
      cases above with
      | nil => exact .some ⟨layers, later.reverse, houter, by simp, by simp⟩
      | cons top above => exact .none

end Around

theorem isKept_around (left right : Element) (outer : List Frame) :
    IsKept (Around left right outer) where
  isOpen _ _ h := h.isOpen
  note _ _ node h _ := h.note node
  start _ _ tag closed h _ := h.start tag closed
  finish? _ _ name h := h.finish? name

/-- An element begins its way in the innermost of the frames, or at the top without any. -/
theorem around_place (left right : Element) (outer : List Frame) :
    Around left right outer (({ frames := outer } : Nesting).place left)
      (({ frames := outer } : Nesting).place right) := by
  cases outer with
  | nil => exact @Around.behind _ _ _ [] [] [] rfl
  | cons frame frames => exact @Around.within _ _ _ [] frame frames [] [] rfl

end Nesting

theorem areBound_eq_all (outer : List String) (nodes : List Node) :
    areBound outer nodes = nodes.all (Node.isBound outer) := by
  induction nodes with
  | nil => rfl
  | cons node nodes ih => rw [areBound, ih, List.all_cons]

theorem Node.isBound_of_element?_eq_none {node : Node} (h : node.element? = none)
    (outer : List String) : node.isBound outer = true := by
  cases node with
  | element tag children => cases h
  | _ => rfl

/-- Whether all qualifiers are bound can change with the innermost element only. -/
theorem isBound_enclose {left right : Element}
    (h : ∀ outer, left.node.isBound outer = right.node.isBound outer) (layers : List Layer)
    (outer : List String) :
    (enclose layers left).node.isBound outer = (enclose layers right).node.isBound outer := by
  induction layers generalizing left right with
  | nil => exact h outer
  | cons layer layers ih =>
      refine ih fun outer => ?_
      have hchildren : ∀ scope, areBound scope (layer.before ++ left.node :: layer.after) =
          areBound scope (layer.before ++ right.node :: layer.after) := by
        intro scope
        simp only [areBound_eq_all, List.all_append, List.all_cons, h]
      exact congrArg (layer.tag.isBound outer && ·) (hchildren _)

theorem isBound_eq_of_tag_eq {left right : Element} (htag : left.tag = right.tag)
    (hleft : left.elements = []) (hright : right.elements = []) (outer : List String) :
    left.node.isBound outer = right.node.isBound outer := by
  have hchildren : ∀ {element : Element}, element.elements = [] → ∀ scope,
      areBound scope element.children = true := by
    intro element hnone scope
    rw [areBound_eq_all, List.all_eq_true]
    intro node hnode
    exact Node.isBound_of_element?_eq_none (List.filterMap_eq_nil_iff.mp hnone node hnode) scope
  rw [Element.node, Element.node, Node.isBound, Node.isBound, htag, hchildren hleft,
    hchildren hright]

end PanelRelay.Xml
