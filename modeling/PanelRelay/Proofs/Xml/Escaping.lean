import PanelRelay.Xml.Printer

/-!
Escapes. Text and values of attributes are written by codes that can be taken apart again: what is
written for a character tells this character, whatever stands behind it.
-/

namespace PanelRelay.Xml

/-- Two runs of one class of characters, each up to the first character of another class. -/
theorem append_cons_inj {p : Char → Bool} {a b r s : List Char} {c d : Char}
    (ha : ∀ x ∈ a, p x = true) (hb : ∀ x ∈ b, p x = true) (hc : p c = false) (hd : p d = false)
    (h : a ++ c :: r = b ++ d :: s) : a = b ∧ c = d ∧ r = s := by
  induction a generalizing b with
  | nil =>
      cases b with
      | nil => exact ⟨rfl, by simpa using h⟩
      | cons y b =>
          obtain ⟨rfl, -⟩ := List.cons.inj h
          rw [hb c (by simp)] at hc
          cases hc
  | cons x a ih =>
      cases b with
      | nil =>
          obtain ⟨rfl, -⟩ := List.cons.inj h
          rw [ha x (by simp)] at hd
          cases hd
      | cons y b =>
          obtain ⟨rfl, htail⟩ := List.cons.inj h
          obtain ⟨rfl, hrest⟩ := ih (fun z hz => ha z (by simp [hz]))
            (fun z hz => hb z (by simp [hz])) htail
          exact ⟨rfl, hrest⟩

/-- A way to write characters that can be taken apart, up to a character that it never writes. -/
structure IsCode (code : Char → List Char) (stop : Char) : Prop where
  ne_nil : ∀ c, code c ≠ []
  avoids : ∀ c, stop ∉ code c
  inj : ∀ c d r s, code c ++ r = code d ++ s → c = d ∧ r = s

namespace IsCode

variable {code : Char → List Char} {stop : Char}

theorem stop_ne (hcode : IsCode code stop) (c : Char) (r s : List Char) :
    stop :: r ≠ code c ++ s := by
  intro h
  cases hc : code c with
  | nil => exact hcode.ne_nil c hc
  | cons d cs =>
      rw [hc] at h
      obtain ⟨rfl, -⟩ := List.cons.inj h
      exact hcode.avoids c (by simp [hc])

theorem flatMap_inj (hcode : IsCode code stop) {text other r s : List Char}
    (h : text.flatMap code ++ stop :: r = other.flatMap code ++ stop :: s) :
    text = other ∧ r = s := by
  induction text generalizing other with
  | nil =>
      cases other with
      | nil => exact ⟨rfl, by simpa using h⟩
      | cons d other =>
          simp only [List.flatMap_cons, List.append_assoc] at h
          exact absurd h (hcode.stop_ne d _ _)
  | cons c text ih =>
      cases other with
      | nil =>
          simp only [List.flatMap_cons, List.append_assoc] at h
          exact absurd h.symm (hcode.stop_ne c _ _)
      | cons d other =>
          simp only [List.flatMap_cons, List.append_assoc] at h
          obtain ⟨rfl, htail⟩ := hcode.inj c d _ _ h
          obtain ⟨rfl, hrest⟩ := ih htail
          exact ⟨rfl, hrest⟩

theorem not_mem_flatMap (hcode : IsCode code stop) (text : List Char) :
    stop ∉ text.flatMap code := by
  simp only [List.mem_flatMap, not_exists, not_and]
  exact fun c _ => hcode.avoids c

end IsCode

/-- Characters that are not written as themselves, with what is written for them. -/
abbrev Replacements := List (Char × List Char)

def Replacements.code (table : Replacements) (c : Char) : List Char :=
  (table.lookup c).getD [c]

/-- Every replacement starts with an ampersand, which has one itself, and none starts another. -/
structure Replacements.IsUnambiguous (table : Replacements) (stop : Char) : Prop where
  starts : ∀ entry ∈ table, entry.2.head? = some '&'
  ampersand : (table.lookup '&').isSome
  apart : ∀ entry ∈ table, ∀ other ∈ table, entry.2.isPrefixOf other.2 → entry = other
  avoids : ∀ entry ∈ table, stop ∉ entry.2
  stop : (table.lookup stop).isSome

namespace Replacements

variable {table : Replacements} {stop : Char}

theorem mem_of_lookup {c : Char} {text : List Char} (h : table.lookup c = some text) :
    (c, text) ∈ table := by
  obtain ⟨before, after, rfl, -⟩ := List.lookup_eq_some_iff.mp h
  simp

theorem IsUnambiguous.head (htable : table.IsUnambiguous stop) {c : Char} {text : List Char}
    (h : table.lookup c = some text) : ∃ rest, text = '&' :: rest :=
  List.head?_eq_some_iff.mp (htable.starts _ (mem_of_lookup h))

theorem IsUnambiguous.ne_ampersand (htable : table.IsUnambiguous stop) {c : Char}
    (h : table.lookup c = none) : c ≠ '&' := by
  rintro rfl
  have hsome := htable.ampersand
  rw [h] at hsome
  cases hsome

theorem IsUnambiguous.eq_of_append (htable : table.IsUnambiguous stop) {c d : Char}
    {text other r s : List Char} (hc : table.lookup c = some text)
    (hd : table.lookup d = some other) (h : text ++ r = other ++ s) :
    c = d ∧ text = other := by
  have hfirst : text <+: other ++ s := ⟨r, h⟩
  have hsecond : other <+: other ++ s := ⟨s, rfl⟩
  have hmem := mem_of_lookup hc
  have hmem' := mem_of_lookup hd
  rcases List.prefix_or_prefix_of_prefix hfirst hsecond with hpre | hpre
  · exact Prod.mk.inj (htable.apart _ hmem _ hmem' (List.isPrefixOf_iff_prefix.mpr hpre))
  · have heq := htable.apart _ hmem' _ hmem (List.isPrefixOf_iff_prefix.mpr hpre)
    exact Prod.mk.inj heq.symm

theorem IsUnambiguous.isCode (htable : table.IsUnambiguous stop) : IsCode table.code stop where
  ne_nil c := by
    unfold code
    cases hc : table.lookup c with
    | none => simp
    | some text =>
        obtain ⟨rest, rfl⟩ := htable.head hc
        simp
  avoids c := by
    unfold code
    cases hc : table.lookup c with
    | none =>
        have hstop := htable.stop
        rintro hmem
        rw [List.mem_singleton.mp hmem, hc] at hstop
        cases hstop
    | some text => exact htable.avoids _ (mem_of_lookup hc)
  inj c d r s h := by
    unfold code at h
    cases hc : table.lookup c with
    | none =>
        cases hd : table.lookup d with
        | none => simpa [hc, hd] using h
        | some other =>
            obtain ⟨rest, rfl⟩ := htable.head hd
            simp only [hc, hd, Option.getD_none, Option.getD_some, List.cons_append] at h
            exact absurd (List.cons.inj h).1 (htable.ne_ampersand hc)
    | some text =>
        cases hd : table.lookup d with
        | none =>
            obtain ⟨rest, rfl⟩ := htable.head hc
            simp only [hc, hd, Option.getD_none, Option.getD_some, List.cons_append] at h
            exact absurd (List.cons.inj h).1.symm (htable.ne_ampersand hd)
        | some other =>
            simp only [hc, hd, Option.getD_some] at h
            obtain ⟨rfl, rfl⟩ := htable.eq_of_append hc hd h
            exact ⟨rfl, List.append_cancel_left h⟩

end Replacements

def textReplacements : Replacements :=
  [('<', ['&', 'l', 't', ';']), ('>', ['&', 'g', 't', ';']), ('&', ['&', 'a', 'm', 'p', ';'])]

def attributeReplacements : Replacements :=
  [('"', ['&', 'q', 'u', 'o', 't', ';']), ('\'', ['&', 'a', 'p', 'o', 's', ';']),
    ('\n', ['&', '#', 'x', 'A', ';']), ('\r', ['&', '#', 'x', 'D', ';'])] ++ textReplacements

theorem escapeTextChar_eq (c : Char) : escapeTextChar c = textReplacements.code c := by
  unfold escapeTextChar
  split
  · rfl
  · rfl
  · rfl
  next hlt hgt hamp =>
    simp [Replacements.code, textReplacements, List.lookup_cons, beq_eq_false_iff_ne.mpr hlt,
      beq_eq_false_iff_ne.mpr hgt, beq_eq_false_iff_ne.mpr hamp]

theorem escapeAttributeChar_eq (c : Char) :
    escapeAttributeChar c = attributeReplacements.code c := by
  unfold escapeAttributeChar
  split
  · rfl
  · rfl
  · rfl
  · rfl
  next hquot hapos hfeed hreturn =>
    simp [escapeTextChar_eq, Replacements.code, attributeReplacements, List.lookup_cons,
      beq_eq_false_iff_ne.mpr hquot, beq_eq_false_iff_ne.mpr hapos,
      beq_eq_false_iff_ne.mpr hfeed, beq_eq_false_iff_ne.mpr hreturn]

theorem isUnambiguous_textReplacements : ∀ stop ∈ ['<', '>'],
    textReplacements.IsUnambiguous stop := by
  rw [List.forall_mem_cons, List.forall_mem_singleton]
  exact ⟨⟨by decide, by decide, by decide, by decide, by decide⟩,
    ⟨by decide, by decide, by decide, by decide, by decide⟩⟩

theorem isUnambiguous_attributeReplacements : ∀ stop ∈ ['"', '<', '>'],
    attributeReplacements.IsUnambiguous stop := by
  rw [List.forall_mem_cons, List.forall_mem_cons, List.forall_mem_singleton]
  exact ⟨⟨by decide, by decide, by decide, by decide, by decide⟩,
    ⟨by decide, by decide, by decide, by decide, by decide⟩,
    ⟨by decide, by decide, by decide, by decide, by decide⟩⟩

theorem isCode_escapeTextChar (stop : Char) (hstop : stop ∈ ['<', '>'] := by decide) :
    IsCode escapeTextChar stop := by
  rw [funext escapeTextChar_eq]
  exact (isUnambiguous_textReplacements stop hstop).isCode

theorem isCode_escapeAttributeChar (stop : Char) (hstop : stop ∈ ['"', '<', '>'] := by decide) :
    IsCode escapeAttributeChar stop := by
  rw [funext escapeAttributeChar_eq]
  exact (isUnambiguous_attributeReplacements stop hstop).isCode

theorem ne_of_mem_escaped (text : List Char) :
    ∀ c ∈ text.flatMap escapeTextChar, c ≠ '<' ∧ c ≠ '>' := by
  intro c hc
  constructor
  · rintro rfl
    exact (isCode_escapeTextChar '<').not_mem_flatMap text hc
  · rintro rfl
    exact (isCode_escapeTextChar '>').not_mem_flatMap text hc

end PanelRelay.Xml
