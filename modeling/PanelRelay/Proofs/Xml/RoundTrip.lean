import PanelRelay.Proofs.Xml.Grammar

/-!
What is printed, as something written. It stands for the tree without the texts that are mere layout;
the lines and the indentation that printing adds are of that kind.
-/

namespace PanelRelay.Xml

def Node.isLayout : Node → Bool
  | .text content => content.toList.all isBlank
  | _ => false

mutual

def Node.withoutLayout : Node → Node
  | .element tag children => .element tag (withoutLayout children)
  | node => node

def withoutLayout : List Node → List Node
  | [] => []
  | node :: nodes =>
      if node.isLayout then withoutLayout nodes else node.withoutLayout :: withoutLayout nodes

end

@[simp] theorem Node.withoutLayout_element (tag : Tag) (children : List Node) :
    (Node.element tag children).withoutLayout =
      .element tag (PanelRelay.Xml.withoutLayout children) := rfl

@[simp] theorem withoutLayout_nil : withoutLayout [] = [] := rfl

theorem withoutLayout_cons (node : Node) (nodes : List Node) :
    withoutLayout (node :: nodes) =
      if node.isLayout then withoutLayout nodes else node.withoutLayout :: withoutLayout nodes := rfl

theorem withoutLayout_text (content : String) :
    withoutLayout [.text content] =
      if content.toList.all isBlank then [] else [.text content] := rfl

theorem withoutLayout_elements {nodes : List Node} (hnodes : ∀ node ∈ nodes, node.isElement = true) :
    withoutLayout nodes = nodes.map Node.withoutLayout := by
  induction nodes with
  | nil => rfl
  | cons node nodes ih =>
      have helement := hnodes node (by simp)
      have hnode : node.isLayout = false := by
        cases node with
        | text content => cases helement
        | _ => rfl
      rw [withoutLayout_cons, hnode, ih fun later hlater => hnodes later (by simp [hlater])]
      simp

theorem Node.Regular.withoutLayout {tags : Tag → Prop} {node : Node} (hnode : node.Regular tags) :
    node.withoutLayout.Regular tags := by
  induction hnode with
  | @branch tag children htag hchildren ih =>
      rw [withoutLayout_element, withoutLayout_elements fun child hchild =>
        (hchildren child hchild).isElement]
      exact .branch htag (List.forall_mem_map.mpr ih)
  | @leaf tag content htag hcontent =>
      rw [withoutLayout_element, withoutLayout_text]
      split
      · exact .branch htag (by simp)
      · exact .leaf htag hcontent

namespace Replacements

/-- Every replacement is a reference to the character that it stands for. -/
def IsReadable (table : Replacements) : Prop :=
  ∀ entry ∈ table, ∃ body, entry.2 = '&' :: (body ++ [';']) ∧
    Reference.ofText? .v10 body = some (.char entry.1)

theorem isReadable_attributeReplacements : attributeReplacements.IsReadable := by
  have hbodies : ∀ entry ∈ attributeReplacements,
      entry.2 = '&' :: (entry.2.tail.dropLast ++ [';']) ∧
        Reference.ofText? .v10 entry.2.tail.dropLast = some (.char entry.1) := by
    decide
  exact fun entry hentry => ⟨_, hbodies entry hentry⟩

theorem isReadable_textReplacements : textReplacements.IsReadable := fun entry hentry =>
  isReadable_attributeReplacements entry (List.mem_append_right _ hentry)

theorem IsReadable.isSpelled {table : Replacements} (htable : table.IsReadable)
    {barred : List Char} (hbarred : (barred.all fun c => (table.lookup c).isSome) = true)
    {text : List Char} (htext : text.all Version.v10.allows = true) :
    IsSpelled .v10 barred (text.flatMap table.code) text := by
  induction text with
  | nil => exact .nil
  | cons c text ih =>
      rw [List.all_cons, Bool.and_eq_true] at htext
      have hrest := ih htext.2
      rw [List.flatMap_cons, code]
      cases hlookup : table.lookup c with
      | none =>
          refine .literal htext.1 (fun hc => ?_) hrest
          have hfound := List.all_eq_true.mp hbarred c hc
          rw [hlookup] at hfound
          cases hfound
      | some replacement =>
          obtain ⟨body, rfl, hread⟩ := htable _ (mem_of_lookup hlookup)
          rw [Option.getD_some, List.cons_append, List.append_assoc]
          exact .reference hread hrest

end Replacements

theorem isSpelled_escapedValue {text : List Char} (htext : text.all Version.v10.allows = true) :
    IsSpelled .v10 ['<', '&', '"'] (text.flatMap escapeAttributeChar) text := by
  rw [funext escapeAttributeChar_eq]
  exact Replacements.isReadable_attributeReplacements.isSpelled (by decide) htext

theorem isRun_escapedText {text : List Char} (htext : text.all Version.v10.allows = true) :
    IsRun .v10 (text.flatMap escapeTextChar) text := by
  constructor
  · rw [funext escapeTextChar_eq]
    exact Replacements.isReadable_textReplacements.isSpelled (by decide) htext
  · intro hend
    have hclose : '>' ∈ text.flatMap escapeTextChar := hend.subset (by decide)
    exact (ne_of_mem_escaped text '>' hclose).2 rfl

theorem isRun_blanks {text : List Char} (htext : text.all isBlank = true) : IsRun .v10 text text := by
  rw [List.all_eq_true] at htext
  constructor
  · induction text with
    | nil => exact .nil
    | cons c text ih =>
        obtain ⟨hc, htext⟩ := List.forall_mem_cons.mp htext
        refine .literal ?_ ?_ (ih htext) <;>
          rcases (isBlank_iff c).mp hc with rfl | rfl | rfl | rfl <;> decide
  · intro hend
    exact absurd (htext '>' (hend.subset (by decide))) (by decide)

theorem isAttributes_print {items : List Attribute} (hnames : ∀ item ∈ items, item.name.IsValid)
    (hvalues : ∀ item ∈ items, item.value.toList.all Version.v10.allows = true) :
    IsAttributes .v10 (items.flatMap Attribute.print) items := by
  induction items with
  | nil => exact .nil
  | cons item items ih =>
      obtain ⟨hname, hnames⟩ := List.forall_mem_cons.mp hnames
      obtain ⟨hvalue, hvalues⟩ := List.forall_mem_cons.mp hvalues
      have hblanks : AreBlanks [' '] := List.forall_mem_singleton.mpr rfl
      have hnone : AreBlanks [] := List.forall_mem_nil _
      have hfirst : IsAttributes .v10
          ([' '] ++ item.name.chars ++ [] ++ '=' :: [] ++
            Quote.double.char :: item.value.toList.flatMap escapeAttributeChar ++
              Quote.double.char :: items.flatMap Attribute.print)
          (item :: items) :=
        .cons hblanks (List.cons_ne_nil _ _) hname hnone hnone (isSpelled_escapedValue hvalue)
          (ih hnames hvalues)
      simpa [Attribute.print, Quote.char] using hfirst

theorem Tag.IsValid.isTag {tag : Tag} (htag : tag.IsValid) {blanks : List Char}
    (hblanks : AreBlanks blanks) : IsTag .v10 (tag.print ++ blanks) tag :=
  .intro htag.name (isAttributes_print htag.names htag.values) htag.nodup hblanks

theorem runNodes_blanks {text : List Char} (htext : text.all isBlank = true) :
    runNodes false text = [] :=
  if_pos (.inr ⟨rfl, htext⟩)

theorem runNodes_toList (content : String) :
    runNodes false content.toList = withoutLayout [.text content] := by
  rw [withoutLayout_text]
  by_cases hblank : content.toList.all isBlank = true
  · rw [runNodes_blanks hblank, if_pos hblank]
  · have hkept : ¬ (content.toList = [] ∨ (false = false ∧ content.toList.all isBlank = true)) := by
      rintro (hempty | ⟨-, hall⟩)
      · exact hblank (by rw [hempty]; rfl)
      · exact hblank hall
    rw [runNodes, if_neg hkept, if_neg hblank, String.ofList_toList]

theorem isMarkup_element {tag : Tag} (htag : tag.IsValid) {content : List Char}
    {children : List Node} (hcontent : IsContent .v10 false content children) :
    IsMarkup .v10 (tag.printOpen ++ content ++ tag.printClose) (.element tag children) := by
  have hnone : AreBlanks [] := List.forall_mem_nil _
  have helement := IsMarkup.element (htag.isTag hnone) hcontent hnone
  simpa [Tag.printOpen, Tag.printClose, Token.chars] using helement

theorem isMarkup_leaf {tag : Tag} (htag : tag.IsValid) {content : String}
    (hcontent : content.toList.all Version.v10.allows = true) (depth : Nat) :
    IsMarkup .v10 ((Node.element tag [.text content]).print depth)
      (Node.element tag [.text content]).withoutLayout := by
  have hrun : IsContent .v10 false (escapeText content) (runNodes false content.toList) :=
    .run (isRun_escapedText hcontent)
  rw [runNodes_toList] at hrun
  rw [Node.print_leaf, Node.withoutLayout_element]
  exact isMarkup_element htag hrun

theorem isMarkup_empty {tag : Tag} (htag : tag.IsValid) (depth : Nat) :
    IsMarkup .v10 ((Node.element tag []).print depth) (Node.element tag []).withoutLayout := by
  have hblank : AreBlanks [' '] := List.forall_mem_singleton.mpr rfl
  have hempty := IsMarkup.empty (htag.isTag hblank)
  simpa [Tag.printEmpty, Token.chars] using hempty

theorem isContent_printLines {nodes : List Node} {depth : Nat}
    (hnodes : ∀ node ∈ nodes, IsMarkup .v10 (node.print depth) node.withoutLayout)
    (hquiet : ∀ node ∈ nodes, node.withoutLayout.isLoud = false) (outer : Nat) :
    IsContent .v10 false (printLines depth nodes ++ newLine outer)
      (nodes.map Node.withoutLayout) := by
  induction nodes with
  | nil =>
      have hrun : IsContent .v10 false (newLine outer) (runNodes false (newLine outer)) :=
        .run (isRun_blanks (isBlank_newLine outer))
      rwa [runNodes_blanks (isBlank_newLine outer)] at hrun
  | cons node nodes ih =>
      obtain ⟨hnode, hnodes⟩ := List.forall_mem_cons.mp hnodes
      obtain ⟨hfirst, hquiet⟩ := List.forall_mem_cons.mp hquiet
      have hrest := ih hnodes hquiet
      rw [← hfirst] at hrest
      have hwhole : IsContent .v10 false
          (newLine depth ++ node.print depth ++ (printLines depth nodes ++ newLine outer))
          (runNodes false (newLine depth) ++ node.withoutLayout :: nodes.map Node.withoutLayout) :=
        .markup (isRun_blanks (isBlank_newLine depth)) hnode hrest
      rw [runNodes_blanks (isBlank_newLine depth)] at hwhole
      rw [printLines_cons, List.append_assoc, List.map_cons]
      exact hwhole

/-- A printed tree is written as the tree without its layout. -/
theorem Node.Regular.isMarkup {node : Node} (hnode : node.Regular Tag.IsValid) (depth : Nat) :
    IsMarkup .v10 (node.print depth) node.withoutLayout := by
  induction hnode generalizing depth with
  | @branch tag children htag hchildren ih =>
      cases children with
      | nil => exact isMarkup_empty htag depth
      | cons child children =>
          have hquiet : ∀ node ∈ child :: children, node.withoutLayout.isLoud = false := by
            intro node hnode
            obtain ⟨_, _, rfl, -⟩ := (hchildren node hnode).exists_element
            rfl
          have hlines := isContent_printLines
            (fun node hnode => ih node hnode (depth + 1)) hquiet depth
          rw [Node.Regular.print_branch hchildren, Node.withoutLayout_element,
            withoutLayout_elements fun node hnode => (hchildren node hnode).isElement,
            List.append_assoc tag.printOpen]
          exact isMarkup_element htag hlines
  | leaf htag hcontent => exact isMarkup_leaf htag hcontent depth

end PanelRelay.Xml
