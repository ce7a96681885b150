import Mathlib.Data.List.TakeWhile
import PanelRelay.Proofs.Xml.Escaping

/-!
Trees as they are printed. In a regular tree the names are valid, and an element holds either
elements only or a single text; no two such trees print alike, whatever stands behind them.
-/

namespace PanelRelay.Xml

/-- Whether a name is read back from what is written for it. -/
def Name.IsValid (name : Name) : Prop :=
  Name.take? name.chars = some (name, [])

instance (name : Name) : Decidable name.IsValid :=
  inferInstanceAs (Decidable (_ = _))

/-- Valid names, values that a document can carry, and no attribute twice. -/
structure Tag.IsValid (tag : Tag) : Prop where
  name : tag.name.IsValid
  names : ∀ item ∈ tag.attributes, item.name.IsValid
  values : ∀ item ∈ tag.attributes, item.value.toList.all Version.v10.allows = true
  nodup : (tag.ordinary.map Attribute.name).Nodup

instance (tag : Tag) : Decidable tag.IsValid :=
  decidable_of_iff
    (tag.name.IsValid ∧ (∀ item ∈ tag.attributes, item.name.IsValid) ∧
      (∀ item ∈ tag.attributes, item.value.toList.all Version.v10.allows = true) ∧
      (tag.ordinary.map Attribute.name).Nodup)
    ⟨fun ⟨hname, hnames, hvalues, hnodup⟩ => ⟨hname, hnames, hvalues, hnodup⟩,
      fun htag => ⟨htag.name, htag.names, htag.values, htag.nodup⟩⟩

inductive Node.Regular (tags : Tag → Prop) : Node → Prop where
  | branch {tag : Tag} {children : List Node} (htag : tags tag)
      (hchildren : ∀ child ∈ children, Node.Regular tags child) :
      Node.Regular tags (.element tag children)
  | leaf {tag : Tag} {content : String} (htag : tags tag)
      (hcontent : content.toList.all Version.v10.allows = true) :
      Node.Regular tags (.element tag [.text content])

namespace Name

variable {name other : Name}

theorem IsValid.facts (hvalid : name.IsValid) :
    name.chars.head?.any isNameStart = true ∧ (∀ c ∈ name.chars, isNameChar c = true) ∧
      ofChars? name.chars = some name := by
  unfold IsValid take? at hvalid
  split at hvalid
  next hhead =>
    obtain ⟨found, hfound, heq⟩ := Option.map_eq_some_iff.mp hvalid
    obtain ⟨hname, hrest⟩ := Prod.mk.inj heq
    have hall : ∀ c ∈ name.chars, isNameChar c = true := by
      simpa [List.dropWhile_eq_nil_iff] using hrest
    rw [List.takeWhile_eq_self_iff.mpr hall, hname] at hfound
    exact ⟨hhead, hall, hfound⟩
  next => cases hvalid

theorem IsValid.isNameChar (hvalid : name.IsValid) {c : Char} (hc : c ∈ name.chars) :
    Xml.isNameChar c = true :=
  hvalid.facts.2.1 c hc

theorem IsValid.ofChars? (hvalid : name.IsValid) : Name.ofChars? name.chars = some name :=
  hvalid.facts.2.2

theorem IsValid.exists_cons (hvalid : name.IsValid) :
    ∃ c rest, name.chars = c :: rest ∧ isNameStart c = true := by
  have hhead := hvalid.facts.1
  cases hchars : name.chars with
  | nil => simp [hchars] at hhead
  | cons c rest => exact ⟨c, rest, rfl, by simpa [hchars] using hhead⟩

theorem IsValid.chars_inj (hvalid : name.IsValid) (hother : other.IsValid)
    (h : name.chars = other.chars) : name = other := by
  have hread := hvalid.ofChars?
  rw [h, hother.ofChars?] at hread
  exact (Option.some.inj hread).symm

theorem IsValid.append_inj (hvalid : name.IsValid) (hother : other.IsValid) {c d : Char}
    {r s : List Char} (hc : Xml.isNameChar c = false) (hd : Xml.isNameChar d = false)
    (h : name.chars ++ c :: r = other.chars ++ d :: s) : name = other ∧ c = d ∧ r = s := by
  obtain ⟨hchars, hrest⟩ := append_cons_inj (fun _ => hvalid.isNameChar)
    (fun _ => hother.isNameChar) hc hd h
  exact ⟨hvalid.chars_inj hother hchars, hrest⟩

end Name

theorem Attribute.print_append_inj {item other : Attribute} (hitem : item.name.IsValid)
    (hother : other.name.IsValid) {r s : List Char} (h : item.print ++ r = other.print ++ s) :
    item = other ∧ r = s := by
  obtain ⟨name, value⟩ := item
  obtain ⟨otherName, otherValue⟩ := other
  simp only [Attribute.print, List.cons_append, List.append_assoc, List.cons.injEq,
    true_and, List.nil_append] at h
  obtain ⟨rfl, -, h⟩ := hitem.append_inj hother (by decide) (by decide) h
  obtain ⟨hvalue, hrest⟩ := (isCode_escapeAttributeChar '"').flatMap_inj (List.cons.inj h).2
  exact ⟨by rw [String.toList_inj.mp hvalue], hrest⟩

/-- How a tag goes on behind its attributes. -/
inductive IsTagEnd : List Char → Prop where
  | close (rest : List Char) : IsTagEnd ('>' :: rest)
  | empty (rest : List Char) : IsTagEnd (' ' :: '/' :: rest)

theorem IsTagEnd.ne_print {ending r : List Char} (hending : IsTagEnd ending) {item : Attribute}
    (hitem : item.name.IsValid) : ending ≠ item.print ++ r := by
  obtain ⟨c, rest, hchars, hstart⟩ := hitem.exists_cons
  intro h
  simp only [Attribute.print, hchars, List.cons_append] at h
  cases hending with
  | close => simp at h
  | empty =>
      obtain ⟨rfl, -⟩ := List.cons.inj (List.cons.inj h).2
      revert hstart
      decide

theorem attributes_append_inj {items others : List Attribute}
    (hitems : ∀ item ∈ items, item.name.IsValid) (hothers : ∀ item ∈ others, item.name.IsValid)
    {r s : List Char} (hr : IsTagEnd r) (hs : IsTagEnd s)
    (h : items.flatMap Attribute.print ++ r = others.flatMap Attribute.print ++ s) :
    items = others ∧ r = s := by
  induction items generalizing others with
  | nil =>
      cases others with
      | nil => exact ⟨rfl, h⟩
      | cons other others =>
          simp only [List.flatMap_cons, List.append_assoc] at h
          exact absurd h (hr.ne_print (hothers other (by simp)))
  | cons item items ih =>
      cases others with
      | nil =>
          simp only [List.flatMap_cons, List.append_assoc] at h
          exact absurd h.symm (hs.ne_print (hitems item (by simp)))
      | cons other others =>
          simp only [List.flatMap_cons, List.append_assoc] at h
          obtain ⟨rfl, htail⟩ := Attribute.print_append_inj (hitems item (by simp))
            (hothers other (by simp)) h
          obtain ⟨rfl, hrest⟩ := ih (fun later hlater => hitems later (by simp [hlater]))
            (fun later hlater => hothers later (by simp [hlater])) htail
          exact ⟨rfl, hrest⟩

theorem exists_cons_of_isTagEnd (items : List Attribute) {r : List Char} (hr : IsTagEnd r) :
    ∃ c rest, items.flatMap Attribute.print ++ r = c :: rest ∧ isNameChar c = false := by
  cases items with
  | nil =>
      cases hr with
      | close rest => exact ⟨_, _, rfl, by decide⟩
      | empty rest => exact ⟨_, _, rfl, by decide⟩
  | cons item items => exact ⟨' ', _, rfl, by decide⟩

theorem Tag.print_append_inj {tag other : Tag} (htag : tag.IsValid) (hother : other.IsValid)
    {r s : List Char} (hr : IsTagEnd r) (hs : IsTagEnd s)
    (h : tag.print ++ r = other.print ++ s) : tag = other ∧ r = s := by
  obtain ⟨name, items⟩ := tag
  obtain ⟨otherName, others⟩ := other
  simp only [Tag.print, List.append_assoc] at h
  obtain ⟨c, rest, heq, hc⟩ := exists_cons_of_isTagEnd items hr
  obtain ⟨d, otherRest, hotherEq, hd⟩ := exists_cons_of_isTagEnd others hs
  rw [heq, hotherEq] at h
  obtain ⟨rfl, rfl, rfl⟩ := htag.name.append_inj hother.name hc hd h
  obtain ⟨rfl, hrest⟩ := attributes_append_inj htag.names hother.names hr hs
    (heq.trans hotherEq.symm)
  exact ⟨rfl, hrest⟩

theorem Tag.printOpen_append_inj {tag other : Tag} (htag : tag.IsValid) (hother : other.IsValid)
    {r s : List Char} (h : tag.printOpen ++ r = other.printOpen ++ s) : tag = other ∧ r = s := by
  simp only [Tag.printOpen, List.cons_append, List.append_assoc, List.cons.injEq, true_and,
    List.nil_append] at h
  obtain ⟨htags, hrest⟩ := Tag.print_append_inj htag hother (.close r) (.close s) h
  exact ⟨htags, by simpa using hrest⟩

theorem Tag.printEmpty_append_inj {tag other : Tag} (htag : tag.IsValid) (hother : other.IsValid)
    {r s : List Char} (h : tag.printEmpty ++ r = other.printEmpty ++ s) : tag = other ∧ r = s := by
  simp only [Tag.printEmpty, List.cons_append, List.append_assoc, List.cons.injEq, true_and,
    List.nil_append] at h
  obtain ⟨htags, hrest⟩ := Tag.print_append_inj htag hother (.empty _) (.empty _) h
  exact ⟨htags, by simpa using hrest⟩

theorem Tag.printEmpty_append_ne {tag other : Tag} (htag : tag.IsValid) (hother : other.IsValid)
    (r s : List Char) : tag.printEmpty ++ r ≠ other.printOpen ++ s := by
  intro h
  simp only [Tag.printEmpty, Tag.printOpen, List.cons_append, List.append_assoc, List.cons.injEq,
    true_and, List.nil_append] at h
  obtain ⟨-, hrest⟩ := Tag.print_append_inj htag hother (.empty _) (.close s) h
  simp at hrest

@[simp] theorem printLines_nil (depth : Nat) : printLines depth [] = [] := rfl

@[simp] theorem printLines_cons (depth : Nat) (node : Node) (nodes : List Node) :
    printLines depth (node :: nodes) =
      newLine depth ++ node.print depth ++ printLines depth nodes := rfl

namespace Node

@[simp] theorem print_empty (depth : Nat) (tag : Tag) :
    (Node.element tag []).print depth = tag.printEmpty := rfl

theorem print_cons (depth : Nat) (tag : Tag) (child : Node) (children : List Node) :
    (Node.element tag (child :: children)).print depth =
      if (child :: children).all Node.isElement then
        tag.printOpen ++ printLines (depth + 1) (child :: children) ++ newLine depth ++
          tag.printClose
      else tag.printOpen ++ printInline depth (child :: children) ++ tag.printClose := rfl

theorem print_elements {child : Node} {children : List Node}
    (h : (child :: children).all Node.isElement = true) (depth : Nat) (tag : Tag) :
    (Node.element tag (child :: children)).print depth =
      tag.printOpen ++ printLines (depth + 1) (child :: children) ++ newLine depth ++
        tag.printClose :=
  if_pos h

@[simp] theorem print_leaf (depth : Nat) (tag : Tag) (content : String) :
    (Node.element tag [.text content]).print depth =
      tag.printOpen ++ escapeText content ++ tag.printClose := by
  have hinline : printInline depth [.text content] = escapeText content :=
    List.append_nil _
  rw [print_cons, if_neg (by simp [Node.isElement]), hinline]

variable {tags : Tag → Prop}

theorem Regular.exists_element {node : Node} (hnode : node.Regular tags) :
    ∃ tag children, node = .element tag children ∧ tags tag := by
  cases hnode with
  | branch htag hchildren => exact ⟨_, _, rfl, htag⟩
  | leaf htag hcontent => exact ⟨_, _, rfl, htag⟩

theorem Regular.isElement {node : Node} (hnode : node.Regular tags) : node.isElement = true := by
  obtain ⟨tag, children, rfl, -⟩ := hnode.exists_element
  rfl

theorem Regular.print_branch {tag : Tag} {child : Node} {children : List Node}
    (h : ∀ node ∈ child :: children, node.Regular tags) (depth : Nat) :
    (Node.element tag (child :: children)).print depth =
      tag.printOpen ++ printLines (depth + 1) (child :: children) ++ newLine depth ++
        tag.printClose :=
  print_elements (List.all_eq_true.mpr fun node hnode => (h node hnode).isElement) depth tag

theorem Regular.mono {allowed : Tag → Prop} (h : ∀ tag, tags tag → allowed tag) {node : Node}
    (hnode : node.Regular tags) : node.Regular allowed := by
  induction hnode with
  | branch htag hchildren ih => exact .branch (h _ htag) ih
  | leaf htag hcontent => exact .leaf (h _ htag) hcontent

/-- A printed element begins with its tag, which either closes it or goes before its content. -/
theorem Regular.exists_print {node : Node} (hnode : node.Regular tags) (depth : Nat) :
    ∃ tag ending, tags tag ∧ IsTagEnd ending ∧ node.print depth = '<' :: (tag.print ++ ending) := by
  obtain ⟨tag, children, rfl, htag⟩ := hnode.exists_element
  cases children with
  | nil => exact ⟨tag, _, htag, .empty ['>'], by simp [Tag.printEmpty]⟩
  | cons child children =>
      have hopen : ∃ rest, (Node.element tag (child :: children)).print depth =
          tag.printOpen ++ rest := by
        rw [print_cons]
        split
        · exact ⟨_, by rw [List.append_assoc, List.append_assoc]⟩
        · exact ⟨_, by rw [List.append_assoc]⟩
      obtain ⟨rest, hrest⟩ := hopen
      exact ⟨tag, '>' :: rest, htag, .close rest, by simp [hrest, Tag.printOpen]⟩

end Node

theorem isBlank_newLine (depth : Nat) : (newLine depth).all isBlank = true := by
  simp [newLine, isBlank]

theorem not_mem_newLine (depth : Nat) : '<' ∉ newLine depth := fun hmem =>
  absurd (List.all_eq_true.mp (isBlank_newLine depth) '<' hmem) (by decide)

theorem append_markup_inj {a b r s : List Char} (ha : '<' ∉ a) (hb : '<' ∉ b)
    (h : a ++ '<' :: r = b ++ '<' :: s) : a = b ∧ r = s := by
  have hclass : ∀ c ∈ a, decide (c ≠ '<') = true := by
    intro c hc
    exact decide_eq_true fun heq => ha (heq ▸ hc)
  have hother : ∀ c ∈ b, decide (c ≠ '<') = true := by
    intro c hc
    exact decide_eq_true fun heq => hb (heq ▸ hc)
  obtain ⟨hpre, -, hrest⟩ := append_cons_inj hclass hother (by simp) (by simp) h
  exact ⟨hpre, hrest⟩

/-- A child and the end tag of its parent differ behind the angle bracket. -/
theorem Node.Regular.print_ne_close {node : Node} (hnode : node.Regular Tag.IsValid)
    {a b r s : List Char} {depth : Nat} (ha : '<' ∉ a) (hb : '<' ∉ b) :
    a ++ (node.print depth ++ r) ≠ b ++ '<' :: '/' :: s := by
  obtain ⟨tag, ending, htag, -, hprint⟩ := hnode.exists_print depth
  obtain ⟨c, rest, hchars, hstart⟩ := htag.name.exists_cons
  intro h
  rw [hprint, List.cons_append] at h
  obtain ⟨-, h⟩ := append_markup_inj ha hb h
  simp only [Tag.print, hchars, List.cons_append, List.append_assoc] at h
  obtain ⟨rfl, -⟩ := List.cons.inj h
  revert hstart
  decide

theorem printLines_append_inj {nodes others : List Node}
    (hnodes : ∀ node ∈ nodes, node.Regular Tag.IsValid)
    (hothers : ∀ other ∈ others, other.Regular Tag.IsValid)
    (ih : ∀ node ∈ nodes, ∀ other : Node, other.Regular Tag.IsValid → ∀ depth r s,
      node.print depth ++ r = other.print depth ++ s → node = other ∧ r = s)
    {inner depth : Nat} {r s : List Char}
    (h : printLines inner nodes ++ (newLine depth ++ '<' :: '/' :: r) =
      printLines inner others ++ (newLine depth ++ '<' :: '/' :: s)) :
    nodes = others ∧ r = s := by
  induction nodes generalizing others with
  | nil =>
      cases others with
      | nil =>
          simp only [printLines_nil, List.nil_append] at h
          exact ⟨rfl, by simpa using h⟩
      | cons other others =>
          simp only [printLines_nil, printLines_cons, List.nil_append, List.append_assoc] at h
          exact absurd h.symm ((hothers other (by simp)).print_ne_close
            (not_mem_newLine inner) (not_mem_newLine depth))
  | cons node nodes ihNodes =>
      cases others with
      | nil =>
          simp only [printLines_nil, printLines_cons, List.nil_append, List.append_assoc] at h
          exact absurd h ((hnodes node (by simp)).print_ne_close
            (not_mem_newLine inner) (not_mem_newLine depth))
      | cons other others =>
          simp only [printLines_cons, List.append_assoc] at h
          obtain ⟨rfl, htail⟩ := ih node (by simp) other (hothers other (by simp)) inner _ _
            (List.append_cancel_left h)
          obtain ⟨rfl, hrest⟩ := ihNodes (fun later hlater => hnodes later (by simp [hlater]))
            (fun later hlater => hothers later (by simp [hlater]))
            (fun later hlater => ih later (by simp [hlater])) htail
          exact ⟨rfl, hrest⟩

/-- A child in place of a text would be taken for the end of its parent. -/
theorem Node.Regular.lines_ne_text {child : Node} (hchild : child.Regular Tag.IsValid)
    {inner : Nat} (content : String) {tag : Tag} {r s : List Char} :
    newLine inner ++ child.print inner ++ r ≠ escapeText content ++ (tag.printClose ++ s) := by
  rw [List.append_assoc]
  exact hchild.print_ne_close (not_mem_newLine inner)
    ((isCode_escapeTextChar '<').not_mem_flatMap content.toList)

/-- What a regular tree is printed as tells the tree, and where it ends. -/
theorem Node.Regular.print_append_inj {node other : Node} (hnode : node.Regular Tag.IsValid)
    (hother : other.Regular Tag.IsValid) {depth : Nat} {r s : List Char}
    (h : node.print depth ++ r = other.print depth ++ s) : node = other ∧ r = s := by
  -- Both trees are taken apart side by side. Where their shapes differ, their texts do so at the end
  -- of a tag, or behind the first angle bracket after it.
  induction hnode generalizing other depth r s with
  | @branch tag children htag hchildren ih =>
      cases hother with
      | @branch otherTag others hotherTag hothers =>
          cases children with
          | nil =>
              cases others with
              | nil =>
                  obtain ⟨rfl, hrest⟩ := Tag.printEmpty_append_inj htag hotherTag h
                  exact ⟨rfl, hrest⟩
              | cons other others =>
                  rw [print_branch hothers] at h
                  simp only [List.append_assoc] at h
                  exact absurd h (Tag.printEmpty_append_ne htag hotherTag _ _)
          | cons child children =>
              rw [print_branch hchildren] at h
              cases others with
              | nil =>
                  simp only [List.append_assoc] at h
                  exact absurd h.symm (Tag.printEmpty_append_ne hotherTag htag _ _)
              | cons other others =>
                  rw [print_branch hothers] at h
                  simp only [List.append_assoc] at h
                  obtain ⟨rfl, hcontent⟩ := Tag.printOpen_append_inj htag hotherTag h
                  obtain ⟨hsame, hrest⟩ := printLines_append_inj hchildren hothers
                    (fun node hnode other hother _ _ _ => ih node hnode hother) hcontent
                  rw [hsame]
                  exact ⟨rfl, by simpa using hrest⟩
      | @leaf otherTag content hotherTag hcontent =>
          cases children with
          | nil =>
              simp only [print_leaf, List.append_assoc] at h
              exact absurd h (Tag.printEmpty_append_ne htag hotherTag _ _)
          | cons child children =>
              rw [print_branch hchildren] at h
              simp only [print_leaf, List.append_assoc] at h
              obtain ⟨rfl, htext⟩ := Tag.printOpen_append_inj htag hotherTag h
              rw [printLines_cons, List.append_assoc] at htext
              exact absurd htext ((hchildren child (by simp)).lines_ne_text content)
  | @leaf tag content htag hcontent =>
      cases hother with
      | @branch otherTag others hotherTag hothers =>
          cases others with
          | nil =>
              simp only [print_leaf, List.append_assoc] at h
              exact absurd h.symm (Tag.printEmpty_append_ne hotherTag htag _ _)
          | cons other others =>
              rw [print_branch hothers] at h
              simp only [print_leaf, List.append_assoc] at h
              obtain ⟨rfl, htext⟩ := Tag.printOpen_append_inj htag hotherTag h
              rw [printLines_cons, List.append_assoc] at htext
              exact absurd htext.symm ((hothers other (by simp)).lines_ne_text content)
      | @leaf otherTag otherContent hotherTag hotherContent =>
          simp only [print_leaf, List.append_assoc] at h
          obtain ⟨rfl, htext⟩ := Tag.printOpen_append_inj htag hotherTag h
          obtain ⟨hsame, hrest⟩ := (isCode_escapeTextChar '<').flatMap_inj htext
          rw [String.toList_inj.mp hsame]
          exact ⟨rfl, by simpa using hrest⟩

end PanelRelay.Xml
