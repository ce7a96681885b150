import PanelRelay.Proofs.Xml.Alike
import PanelRelay.Proofs.Xml.AttributeOrder
import PanelRelay.Proofs.Xml.Attributes
import PanelRelay.Proofs.Xml.Pieces

/-!
Documents whose start tags list their attributes in other orders. They are read into trees in which
the tags are permuted accordingly, or neither of them is read.
-/

namespace PanelRelay.Xml

/-- Tags as they are read, of which the second may list the attributes of the first in another order. -/
structure Tag.IsReordered (tag other : Tag) : Prop where
  permuted : tag.IsPermuted other
  hasLocalNames : tag.HasLocalNames
  unique : other = tag ∨ (tag.ordinary.map fun item => item.name.base).Nodup

namespace Tag.IsReordered

variable {tag other : Tag}

theorem refl (h : tag.HasLocalNames) : tag.IsReordered tag :=
  ⟨⟨rfl, .refl _⟩, h, .inl rfl⟩

theorem values (h : tag.IsReordered other) : other.values.Perm tag.values := by
  rcases h.unique with rfl | hunique
  · exact .refl _
  · exact values_perm_of_attributes_perm h.permuted.attributes hunique

end Tag.IsReordered

theorem Nesting.isKept_reordered : IsKept (Nesting.Alike Tag.IsReordered) :=
  isKept_alike (fun _ _ h => h.permuted.name_eq) fun _ htag => .refl htag

theorem all_isBound_eq {roots others : List Element}
    (h : List.Forall₂ (Element.Alike Tag.IsReordered) roots others) :
    roots.all Element.isBound = others.all Element.isBound := by
  induction h with
  | nil => rfl
  | @cons root other roots others hroot _ ih =>
      have hbound : other.isBound = root.isBound :=
        hroot.node.isBound_eq (fun _ _ htag => htag.permuted) fun _ => Iff.rfl
      rw [List.all_cons, List.all_cons, ih, hbound]

/-- A reader is beside itself: what it has built has local names only. -/
theorem Reader.beside_of_readAll? {version : Version} {text : List Char} {reader : Reader}
    (h : Reader.readAll? { version } text = some reader) :
    Beside (Nesting.Alike Tag.IsReordered) reader reader := by
  have hstart : Beside (Nesting.Alike Tag.IsReordered) { version } { version } :=
    ⟨rfl, ⟨.nil, .nil⟩, trivial⟩
  have hread := hstart.readAll? Nesting.isKept_reordered text
  rw [h] at hread
  obtain ⟨other, hother, hbeside⟩ := exists_of_rel_some hread
  obtain rfl := Option.some.inj hother
  exact hbeside

/-- In a tree that was read every attribute has a local name. -/
theorem everywhere_of_parse? {octets : List UInt8} {root : Element}
    (h : Element.parse? octets = some root) : root.node.Everywhere Tag.HasLocalNames := by
  obtain ⟨⟨declaration, text⟩, hdeclared, -⟩ := Option.bind_eq_some_iff.mp h
  have hread : Option.Rel (Reader.Beside (Nesting.Alike Tag.IsReordered))
      (Reader.readAll? { version := declaration.version } text)
      (Reader.readAll? { version := declaration.version } text) := by
    cases hreader : Reader.readAll? { version := declaration.version } text with
    | none => exact .none
    | some reader => exact .some (Reader.beside_of_readAll? hreader)
  have hparse := rel_parse? (S := Element.Alike Tag.IsReordered) (fun _ _ h => h.complete?)
    (fun _ _ h => all_isBound_eq h) hread ?_ hdeclared hdeclared rfl rfl
  · rw [h] at hparse
    obtain ⟨other, -, halike⟩ := exists_of_rel_some hparse
    exact halike.node.everywhere fun _ _ htag => htag.hasLocalNames
  · intro roots others hroots
    cases hroots with
    | nil => exact .none
    | cons hroot _ => exact .some hroot

/--
A text with another order of the attributes in one start tag, where no two of them share a local name.
What stands before the tag may be any text that the bracket of the tag is read behind.
-/
inductive Reordering (version : Version) : List Char → List Char → Prop
  | intro {front written written' back : List Char} {reader : Reader} {tag tag' : Tag} {closed : Bool}
      (hfront : Reader.readAll? { version } (front ++ ['<']) = some reader)
      (hplace : reader.place = .content) (hlexer : reader.lexer = { mode := .angle })
      (htag : IsStartTag reader.version reader.entities written tag)
      (htag' : IsStartTag reader.version reader.entities written' tag')
      (hpermuted : tag.IsPermuted tag')
      (hunique : (tag.ordinary.map fun item => item.name.base).Nodup) :
      Reordering version
        (front ++ ['<'] ++ (written ++ (if closed then Token.emptyTagEnd else .tagEnd).chars) ++ back)
        (front ++ ['<'] ++ (written' ++ (if closed then Token.emptyTagEnd else .tagEnd).chars) ++
          back)

theorem nodup_names_of_nodup_bases {tag : Tag}
    (h : (tag.ordinary.map fun item => item.name.base).Nodup) :
    (tag.ordinary.map Attribute.name).Nodup := by
  have hbases : (tag.ordinary.map fun item => item.name.base) =
      (tag.ordinary.map Attribute.name).map Name.base := by
    rw [List.map_map]
    rfl
  rw [hbases] at h
  exact h.of_map _

theorem Reader.readAll?_startTag {reader : Reader} {written : List Char} {tag : Tag}
    (htag : IsStartTag reader.version reader.entities written tag)
    (hplace : reader.place = .content) (hlexer : reader.lexer = { mode := .angle })
    (hunique : (tag.ordinary.map fun item => item.name.base).Nodup) (closed : Bool) :
    reader.readAll? (written ++ (if closed then Token.emptyTagEnd else .tagEnd).chars) =
      some { reader.behindStart tag closed with lexer := {} } := by
  have hread := advances_start htag hplace (nodup_names_of_nodup_bases hunique) closed
  rw [← hlexer] at hread
  exact hread.readAll?

/-- Behind the two start tags the readers are beside each other, and they go on side by side. -/
theorem Reordering.rel_roots? {version : Version} {text text' : List Char}
    (h : Reordering version text text') :
    Option.Rel (List.Forall₂ (Element.Alike Tag.IsReordered)) (roots? version text)
      (roots? version text') := by
  cases h with
  | @intro front written written' back reader tag tag' closed hfront hplace hlexer htag htag'
      hpermuted hunique =>
      have hunique' : (tag'.ordinary.map fun item => item.name.base).Nodup :=
        ((hpermuted.attributes.filter _).map _).nodup_iff.mpr hunique
      have hself := (Reader.beside_of_readAll? hfront).flush Nesting.isKept_reordered
      have hbeside : Reader.Beside (Nesting.Alike Tag.IsReordered)
          { reader.behindStart tag closed with lexer := {} }
          { reader.behindStart tag' closed with lexer := {} } :=
        ⟨rfl, hself.nesting.start ⟨hpermuted, htag.hasLocalNames, .inr hunique⟩ closed, trivial⟩
      refine Xml.rel_roots? (R := Nesting.Alike Tag.IsReordered) (fun _ _ h => h.complete?)
        (fun _ _ h => all_isBound_eq h) ?_
      rw [Reader.readAll?_append, Reader.readAll?_append _ (front ++ ['<']), hfront, Option.bind_some,
        Reader.readAll?_startTag htag hplace hlexer hunique, Option.bind_some,
        Reader.readAll?_append, Reader.readAll?_append _ (front ++ ['<']), hfront, Option.bind_some,
        Reader.readAll?_startTag htag' hplace hlexer hunique', Option.bind_some]
      exact hbeside.readAll? Nesting.isKept_reordered back

theorem Opens.exists_readAll?_bracket {version : Version} {front : List Char} {tag : Tag}
    {outer : List Frame} (h : Opens version front tag outer) :
    ∃ entities, Reader.readAll? { version } (front ++ ['<']) =
      some { Reader.behindTag version (({ frames := outer } : Nesting).start tag false) entities with
        lexer := { mode := .angle } } := by
  obtain ⟨entities, hfront⟩ := h
  refine ⟨entities, ?_⟩
  rw [Reader.readAll?_append, hfront, Option.bind_some]
  exact Reader.Advances.readAll? (.cons rfl (.nil _) (.refl _ _))

/-- The first child of an element may list its attributes in any order. -/
theorem Opens.reordering {version : Version} {front written written' : List Char}
    {outermost tag tag' : Tag} {outer : List Frame} (h : Opens version front outermost outer)
    (htag : IsTag version written tag) (htag' : IsTag version written' tag')
    (hpermuted : tag.IsPermuted tag') (hunique : (tag.ordinary.map fun item => item.name.base).Nodup)
    (closed : Bool) (back : List Char) :
    Reordering version
      (front ++ ['<'] ++ (written ++ (if closed then Token.emptyTagEnd else .tagEnd).chars) ++ back)
      (front ++ ['<'] ++ (written' ++ (if closed then Token.emptyTagEnd else .tagEnd).chars) ++
        back) := by
  obtain ⟨entities, hfront⟩ := h.exists_readAll?_bracket
  exact .intro hfront rfl rfl (htag.isStartTag entities) (htag'.isStartTag entities) hpermuted hunique

end PanelRelay.Xml
