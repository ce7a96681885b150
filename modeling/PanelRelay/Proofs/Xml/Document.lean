import PanelRelay.Proofs.Xml.Reading
import PanelRelay.Proofs.Xml.RoundTrip

/-!
Documents that are printed and parsed. The declaration tells version and encoding; a tree is accepted
as far as all of its qualifiers are bound, and more qualifiers around a tag do no harm.
-/

namespace PanelRelay.Xml

def declarationFields : String := " version=\"1.0\" encoding=\"UTF-8\""

theorem ofChars?_declarationFields :
    Declaration.ofChars? declarationFields.toList = some { encoding := some .utf8 } := by
  have hread : (Declaration.ofChars? declarationFields.toList).map
      (fun declaration => (declaration.version, declaration.encoding)) =
        some (.v10, some .utf8) := by
    decide +kernel
  obtain ⟨⟨version, encoding⟩, hfound, heq⟩ := Option.map_eq_some_iff.mp hread
  obtain ⟨rfl, rfl⟩ := Prod.mk.inj heq
  exact hfound

/-- The octets of a document: mark, fields, mark, and the tree on the lines behind them. -/
theorem encode_document (root : Node) :
    Utf8.encode root.document =
      [0x3c, 0x3f, 0x78, 0x6d, 0x6c] ++ (Utf8.encode declarationFields ++
        0x3f :: 0x3e :: Utf8.encode ("\n" ++ String.ofList (root.print 0))) := by
  have hopening : Utf8.encode "<?xml version=\"1.0\" encoding=\"UTF-8\"?>\n" =
      [0x3c, 0x3f, 0x78, 0x6d, 0x6c] ++ (Utf8.encode declarationFields ++
        0x3f :: 0x3e :: Utf8.encode "\n") := by
    decide +kernel
  unfold Node.document
  generalize root.print 0 = printed
  rw [String.ofList_append, String.ofList_toList, Utf8.encode_append, hopening, Utf8.encode_append]
  generalize Utf8.encode declarationFields = fields
  generalize Utf8.encode "\n" = lineFeed
  simp

theorem declared?_document (root : Node) :
    declared? (Utf8.encode root.document) =
      some ({ encoding := some .utf8 }, '\n' :: root.print 0) := by
  obtain ⟨octets, hoctets⟩ : ∃ octets, Utf8.encode declarationFields = 0x20 :: octets :=
    List.head?_eq_some_iff.mp (by decide +kernel)
  have hmark : (0x3f : UInt8) ∉ Utf8.encode declarationFields := by decide +kernel
  have hcut : cut? [0x3f, 0x3e] ((Utf8.encode root.document).drop 5) =
      some (Utf8.encode declarationFields,
        Utf8.encode ("\n" ++ String.ofList (root.print 0))) := by
    rw [encode_document, List.drop_append_of_le_length (by simp)]
    exact cut?_of_not_mem hmark _
  have hunmarked : declared? (Utf8.encode root.document) =
      unmarked? (Utf8.encode root.document) := by
    rw [encode_document]
    rfl
  have hat : Declaration.isAt (latin1 ((Utf8.encode root.document).take 6)) = true := by
    rw [encode_document, hoctets]
    rfl
  rw [hunmarked, unmarked?, if_pos hat, hcut]
  simp [utf8?, ofChars?_declarationFields, decodeUnmarked?]

theorem Tag.bound_mono (tag : Tag) {scope outer : List String} (houter : scope ⊆ outer) :
    tag.bound scope ⊆ tag.bound outer := by
  intro qualifier hqualifier
  rcases List.mem_append.mp hqualifier with hdeclared | hscope
  · exact List.mem_append_left _ hdeclared
  · exact List.mem_append_right _ (houter hscope)

theorem Tag.isBound_mono {tag : Tag} {scope outer : List String} (htag : tag.isBound scope = true)
    (houter : scope ⊆ outer) : tag.isBound outer = true := by
  have hbound := tag.bound_mono houter
  simp only [Tag.isBound, Bool.and_eq_true, List.all_eq_true, Option.all_eq_true,
    decide_eq_true_eq] at htag ⊢
  obtain ⟨⟨hdeclared, hname⟩, hordinary⟩ := htag
  refine ⟨⟨hdeclared, ?_⟩, ?_⟩
  · intro qualifier hqualifier
    obtain ⟨hreserved, hscope⟩ := hname qualifier hqualifier
    exact ⟨hreserved, hbound hscope⟩
  · intro item hitem qualifier hqualifier
    exact hbound (hordinary item hitem qualifier hqualifier)

theorem areBound_iff {outer : List String} {nodes : List Node} :
    areBound outer nodes = true ↔ ∀ node ∈ nodes, node.isBound outer = true := by
  induction nodes with
  | nil => simp [areBound]
  | cons node nodes ih => simp [areBound, ih]

theorem Node.isBound_element {outer : List String} {tag : Tag} {children : List Node}
    (htag : tag.isBound outer = true)
    (hchildren : ∀ child ∈ children, child.isBound (tag.bound outer) = true) :
    (Node.element tag children).isBound outer = true := by
  rw [Node.isBound, Bool.and_eq_true]
  exact ⟨htag, areBound_iff.mpr hchildren⟩

/-- Tags that are bound in one scope make up trees that are bound wherever this scope is. -/
theorem Node.Regular.isBound {tags : Tag → Prop} {scope outer : List String}
    (htags : ∀ tag, tags tag → tag.isBound scope = true) {node : Node} (hnode : node.Regular tags)
    (houter : scope ⊆ outer) : node.isBound outer = true := by
  induction hnode generalizing outer with
  | @branch tag children htag hchildren ih =>
      apply Node.isBound_element (Tag.isBound_mono (htags tag htag) houter)
      exact fun child hchild => ih child hchild fun qualifier hqualifier =>
        List.mem_append_right _ (houter hqualifier)
  | @leaf tag content htag hcontent =>
      apply Node.isBound_element (Tag.isBound_mono (htags tag htag) houter)
      exact fun child hchild => by rw [List.mem_singleton.mp hchild]; rfl

/-- A printed document is the document of its tree without the layout. -/
theorem Node.Regular.isWritten {node : Node} (hnode : node.Regular Tag.IsValid)
    (hbound : node.withoutLayout.isBound boundEverywhere = true) :
    ∃ root : Element, node.withoutLayout = root.node ∧
      IsWritten (Utf8.encode node.document) root := by
  obtain ⟨tag, children, helement, -⟩ := hnode.withoutLayout.exists_element
  have hroot : node.withoutLayout = Element.node { tag, children } := helement
  refine ⟨{ tag, children }, hroot, _, _, declared?_document node, ?_, ?_⟩
  · have hmarkup := hnode.isMarkup 0
    rw [hroot] at hmarkup
    have hdocument : IsDocument .v10 (['\n'] ++ node.print 0 ++ []) { tag, children } :=
      .intro (.blank rfl .nil) hmarkup .nil
    rw [List.append_nil] at hdocument
    exact hdocument
  · rw [helement] at hbound
    exact hbound

/-- Without layout in it, a tree is written as what it is printed. -/
theorem Element.isWritten_document {root : Element} (hregular : root.node.Regular Tag.IsValid)
    (hlayout : root.node.withoutLayout = root.node) (hbound : root.isBound = true) :
    IsWritten (Utf8.encode root.node.document) root := by
  rw [Element.isBound] at hbound
  obtain ⟨written, hwritten, h⟩ := hregular.isWritten (by rw [hlayout]; exact hbound)
  rw [hlayout] at hwritten
  obtain ⟨tag, children⟩ := root
  obtain ⟨rfl, rfl⟩ := Node.element.inj hwritten
  exact h

theorem Node.Regular.parse?_document {node : Node} (hnode : node.Regular Tag.IsValid)
    (hbound : node.withoutLayout.isBound boundEverywhere = true) :
    ∃ element : Element, node.withoutLayout = element.node ∧
      Element.parse? (Utf8.encode node.document) = some element := by
  obtain ⟨root, hroot, hwritten⟩ := hnode.isWritten hbound
  exact ⟨root, hroot, hwritten.parse?⟩

end PanelRelay.Xml
