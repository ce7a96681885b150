import Mathlib.Data.List.Forall2
import PanelRelay.Proofs.Xml.Alongside
import PanelRelay.Proofs.Xml.Surroundings

/-!
Trees that differ in their tags only, where a relation tells which tags may stand for each other. A
relation that holds between any tag and itself holds between trees that are built side by side.
-/

namespace PanelRelay.Xml

variable {S T : Tag → Tag → Prop} {P : Tag → Prop}

inductive Node.Alike (S : Tag → Tag → Prop) : Node → Node → Prop
  | element {tag tag' : Tag} {children children' : List Node} (htag : S tag tag')
      (hchildren : List.Forall₂ (Node.Alike S) children children') :
      Node.Alike S (.element tag children) (.element tag' children')
  | other {node : Node} (hnode : node.element? = none) : Node.Alike S node node

structure Element.Alike (S : Tag → Tag → Prop) (element other : Element) : Prop where
  tag : S element.tag other.tag
  children : List.Forall₂ (Node.Alike S) element.children other.children

/-- A tree all tags of which satisfy a predicate. -/
inductive Node.Everywhere (P : Tag → Prop) : Node → Prop
  | element {tag : Tag} {children : List Node} (htag : P tag)
      (hchildren : ∀ child ∈ children, child.Everywhere P) :
      Node.Everywhere P (.element tag children)
  | other {node : Node} (hnode : node.element? = none) : Node.Everywhere P node

theorem Node.Alike.element? {node node' : Node} (h : Node.Alike S node node') :
    Option.Rel (Element.Alike S) node.element? node'.element? := by
  cases h with
  | element htag hchildren => exact .some ⟨htag, hchildren⟩
  | other hnode =>
      rw [hnode]
      exact .none

theorem Node.Alike.ownText_eq {node node' : Node} (h : Node.Alike S node node') :
    node'.ownText = node.ownText := by
  cases h <;> rfl

mutual

theorem Node.Alike.imp (himp : ∀ tag tag', P tag → S tag tag' → T tag tag') {node node' : Node}
    (h : Node.Alike S node node') (hnode : node.Everywhere P) : Node.Alike T node node' :=
  match h, hnode with
  | .element htag hchildren, .element hP hall =>
      .element (himp _ _ hP htag) (imp_children himp hchildren hall)
  | .other hnone, _ => .other hnone

theorem imp_children (himp : ∀ tag tag', P tag → S tag tag' → T tag tag')
    {nodes nodes' : List Node} (h : List.Forall₂ (Node.Alike S) nodes nodes')
    (hnodes : ∀ node ∈ nodes, node.Everywhere P) : List.Forall₂ (Node.Alike T) nodes nodes' :=
  match h with
  | .nil => .nil
  | .cons hfirst hrest =>
      .cons (hfirst.imp himp (hnodes _ (.head _)))
        (imp_children himp hrest fun node hnode => hnodes node (.tail _ hnode))

end

theorem Node.Everywhere.imp {Q : Tag → Prop} {node : Node} (h : node.Everywhere P)
    (himp : ∀ tag, P tag → Q tag) : node.Everywhere Q := by
  induction h with
  | element htag _ ih => exact .element (himp _ htag) ih
  | other hnode => exact .other hnode

mutual

theorem Node.Alike.everywhere (hP : ∀ tag tag', S tag tag' → P tag) {node node' : Node}
    (h : Node.Alike S node node') : node.Everywhere P :=
  match h with
  | .element htag hchildren => .element (hP _ _ htag) (everywhere_children hP hchildren)
  | .other hnone => .other hnone

theorem everywhere_children (hP : ∀ tag tag', S tag tag' → P tag) {nodes nodes' : List Node}
    (h : List.Forall₂ (Node.Alike S) nodes nodes') : ∀ node ∈ nodes, node.Everywhere P :=
  match h with
  | .nil => List.forall_mem_nil _
  | .cons hfirst hrest =>
      List.forall_mem_cons.mpr ⟨hfirst.everywhere hP, everywhere_children hP hrest⟩

end

namespace Element.Alike

variable {element other : Element}

theorem node (h : Element.Alike S element other) : Node.Alike S element.node other.node :=
  .element h.tag h.children

theorem imp (himp : ∀ tag tag', P tag → S tag tag' → T tag tag')
    (h : Element.Alike S element other) (heverywhere : element.node.Everywhere P) :
    Element.Alike T element other := by
  have hrel : Option.Rel (Element.Alike T) (some element) (some other) :=
    (h.node.imp himp heverywhere).element?
  obtain ⟨found, hfound, halike⟩ := exists_of_rel_some hrel
  rwa [Option.some.inj hfound]

theorem elements (h : Element.Alike S element other) :
    List.Forall₂ (Element.Alike S) element.elements other.elements :=
  List.rel_filterMap (fun _ _ hnode => hnode.element?) h.children

theorem text_eq (h : Element.Alike S element other) : other.text = element.text := by
  have htexts : ∀ {nodes nodes' : List Node}, List.Forall₂ (Node.Alike S) nodes nodes' →
      nodes'.flatMap Node.ownText = nodes.flatMap Node.ownText := by
    intro nodes nodes' hnodes
    induction hnodes with
    | nil => rfl
    | cons hfirst _ ih => rw [List.flatMap_cons, List.flatMap_cons, hfirst.ownText_eq, ih]
  rw [text, text, htexts h.children]

/-- Children are found alike where related tags bear one name. -/
theorem child? (hname : ∀ tag tag', S tag tag' → tag'.name = tag.name)
    (h : Element.Alike S element other) (name : String) :
    Option.Rel (Element.Alike S) (element.child? name) (other.child? name) := by
  rw [Element.child?, Element.child?]
  have helements := h.elements
  generalize element.elements = children at helements ⊢
  generalize other.elements = others at helements ⊢
  induction helements with
  | nil => exact .none
  | @cons child child' children children' hchild _ ih =>
      have hsame : child'.name = child.name := by
        rw [Element.name, Element.name, hname _ _ hchild.tag]
      by_cases hcalled : child.name = name
      · rw [List.find?_cons_of_pos (by simpa using hcalled),
          List.find?_cons_of_pos (by simpa [hsame] using hcalled)]
        exact .some hchild
      · rw [List.find?_cons_of_neg (by simpa using hcalled),
          List.find?_cons_of_neg (by simpa [hsame] using hcalled)]
        exact ih

end Element.Alike

structure Frame.Alike (S : Tag → Tag → Prop) (frame other : Frame) : Prop where
  tag : S frame.tag other.tag
  nodes : List.Forall₂ (Node.Alike S) frame.nodes other.nodes

structure Nesting.Alike (S : Tag → Tag → Prop) (left right : Nesting) : Prop where
  frames : List.Forall₂ (Frame.Alike S) left.frames right.frames
  roots : List.Forall₂ (Element.Alike S) left.roots right.roots

theorem Frame.Alike.add {frame other : Frame} (h : Frame.Alike S frame other) {node node' : Node}
    (hnode : Node.Alike S node node') : Frame.Alike S (frame.add node) (other.add node') :=
  ⟨h.tag, .cons hnode h.nodes⟩

theorem Frame.Alike.close {frame other : Frame} (h : Frame.Alike S frame other) :
    Element.Alike S frame.close other.close :=
  ⟨h.tag, List.rel_reverse h.nodes⟩

namespace Nesting.Alike

variable {left right : Nesting}

theorem isOpen (h : Nesting.Alike S left right) : left.isOpen = right.isOpen := by
  obtain ⟨frames, roots⟩ := left
  obtain ⟨frames', roots'⟩ := right
  cases h.frames <;> rfl

theorem place (h : Nesting.Alike S left right) {element other : Element}
    (helement : Element.Alike S element other) :
    Nesting.Alike S (left.place element) (right.place other) := by
  obtain ⟨frames, roots⟩ := left
  obtain ⟨frames', roots'⟩ := right
  cases h.frames with
  | nil => exact ⟨.nil, .cons helement h.roots⟩
  | cons hframe hframes => exact ⟨.cons (hframe.add helement.node) hframes, h.roots⟩

theorem note (h : Nesting.Alike S left right) {node : Node} (hnode : node.element? = none) :
    Nesting.Alike S (left.note node) (right.note node) := by
  obtain ⟨frames, roots⟩ := left
  obtain ⟨frames', roots'⟩ := right
  cases h.frames with
  | nil => exact h
  | cons hframe hframes => exact ⟨.cons (hframe.add (.other hnode)) hframes, h.roots⟩

theorem start (h : Nesting.Alike S left right) {tag tag' : Tag} (htag : S tag tag')
    (closed : Bool) : Nesting.Alike S (left.start tag closed) (right.start tag' closed) := by
  cases closed with
  | true => exact h.place ⟨htag, .nil⟩
  | false => exact ⟨.cons ⟨htag, .nil⟩ h.frames, h.roots⟩

theorem finish? (hname : ∀ tag tag', S tag tag' → tag'.name = tag.name)
    (h : Nesting.Alike S left right) (name : Name) :
    Option.Rel (Nesting.Alike S) (left.finish? name) (right.finish? name) := by
  obtain ⟨frames, roots⟩ := left
  obtain ⟨frames', roots'⟩ := right
  cases h.frames with
  | nil => exact .none
  | @cons frame frame' frames frames' hframe hframes =>
      have houter : Nesting.Alike S { frames, roots } { frames := frames', roots := roots' } :=
        ⟨hframes, h.roots⟩
      simp only [Nesting.finish?, hname _ _ hframe.tag]
      split
      next => exact .some (houter.place hframe.close)
      next => exact .none

theorem complete? (h : Nesting.Alike S left right) :
    Option.Rel (List.Forall₂ (Element.Alike S)) left.complete? right.complete? := by
  obtain ⟨frames, roots⟩ := left
  obtain ⟨frames', roots'⟩ := right
  cases h.frames with
  | nil => exact .some (List.rel_reverse h.roots)
  | cons hframe hframes => exact .none

end Nesting.Alike

theorem Nesting.isKept_alike (hname : ∀ tag tag', S tag tag' → tag'.name = tag.name)
    (hrefl : ∀ tag : Tag, tag.HasLocalNames → S tag tag) : IsKept (Nesting.Alike S) where
  isOpen _ _ h := h.isOpen
  note _ _ _ h hnode := h.note hnode
  start _ _ tag closed h htag := h.start (hrefl tag htag) closed
  finish? _ _ name h := h.finish? hname name

/-- A tag with the same attributes in another order. -/
structure Tag.IsPermuted (tag other : Tag) : Prop where
  name_eq : other.name = tag.name
  attributes : other.attributes.Perm tag.attributes

namespace Tag.IsPermuted

variable {tag other : Tag} {outer outer' : List String}

theorem mem_bound_iff (h : tag.IsPermuted other)
    (hscope : ∀ qualifier, qualifier ∈ outer' ↔ qualifier ∈ outer) (qualifier : String) :
    qualifier ∈ other.bound outer' ↔ qualifier ∈ tag.bound outer := by
  rw [bound, bound, List.mem_append, List.mem_append, hscope, (h.attributes.filterMap _).mem_iff]

theorem isBound_eq (h : tag.IsPermuted other)
    (hscope : ∀ qualifier, qualifier ∈ outer' ↔ qualifier ∈ outer) :
    other.isBound outer' = tag.isBound outer := by
  have hordinary : ∀ item, item ∈ other.ordinary ↔ item ∈ tag.ordinary :=
    fun item => (h.attributes.filter _).mem_iff
  rw [Bool.eq_iff_iff]
  simp only [isBound, Bool.and_eq_true, List.all_eq_true, Option.all_eq_true, decide_eq_true_eq,
    h.name_eq, h.attributes.mem_iff, h.mem_bound_iff hscope, hordinary]

end Tag.IsPermuted

mutual

theorem Node.Alike.isBound_eq (hS : ∀ tag tag', S tag tag' → tag.IsPermuted tag')
    {node node' : Node} (h : Node.Alike S node node') {outer outer' : List String}
    (hscope : ∀ qualifier, qualifier ∈ outer' ↔ qualifier ∈ outer) :
    node'.isBound outer' = node.isBound outer :=
  match h with
  | .element htag hchildren => by
      have hpermuted := hS _ _ htag
      have hinner := areBound_eq hS hchildren (hpermuted.mem_bound_iff hscope)
      rw [Node.isBound, Node.isBound, hpermuted.isBound_eq hscope, hinner]
  | .other hnone => by
      rw [Node.isBound_of_element?_eq_none hnone, Node.isBound_of_element?_eq_none hnone]

theorem areBound_eq (hS : ∀ tag tag', S tag tag' → tag.IsPermuted tag') {nodes nodes' : List Node}
    (h : List.Forall₂ (Node.Alike S) nodes nodes') {outer outer' : List String}
    (hscope : ∀ qualifier, qualifier ∈ outer' ↔ qualifier ∈ outer) :
    areBound outer' nodes' = areBound outer nodes :=
  match h with
  | .nil => rfl
  | .cons hfirst hrest => by
      rw [areBound, areBound, hfirst.isBound_eq hS hscope, areBound_eq hS hrest hscope]

end

end PanelRelay.Xml
