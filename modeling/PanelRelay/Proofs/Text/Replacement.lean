import PanelRelay.Text.Replace

/-!
What a replacement leaves alone. A piece of text is passed over if the mark neither stands in it nor
begins in it; pieces of that kind can be put one behind the other.
-/

namespace PanelRelay

/-- A piece that is passed over, whatever is put in place of the mark and whatever comes behind. -/
def Passes (mark piece : List Char) : Prop :=
  ∀ replacement rest, replaceAll mark replacement (piece ++ rest) =
    piece ++ replaceAll mark replacement rest

/-- No end of the piece agrees with the mark as far as the shorter one of the two goes. -/
def isClear (mark : List Char) : List Char → Bool
  | [] => true
  | c :: rest =>
      !mark.isPrefixOf (c :: rest) && !(c :: rest).isPrefixOf mark && isClear mark rest

variable {mark piece front : List Char}

theorem Passes.append {first second : List Char} (hfirst : Passes mark first)
    (hsecond : Passes mark second) : Passes mark (first ++ second) := by
  intro replacement rest
  rw [List.append_assoc, hfirst, hsecond, List.append_assoc]

theorem Passes.replaceAll_eq (h : Passes mark piece) (replacement : List Char) :
    replaceAll mark replacement piece = piece := by
  have hwhole := h replacement []
  have hnil : replaceAll mark replacement [] = [] := by rw [replaceAll]
  rwa [hnil, List.append_nil] at hwhole

theorem passes_nil : Passes mark [] := fun _ _ => rfl

theorem replaceAll_cons_of_not_prefix {c : Char} {rest : List Char} (h : ¬ mark <+: c :: rest)
    (replacement : List Char) :
    replaceAll mark replacement (c :: rest) = c :: replaceAll mark replacement rest := by
  rw [replaceAll, if_neg]
  rwa [List.isPrefixOf_iff_prefix]

theorem replaceAll_mark (hmark : mark ≠ []) (replacement rest : List Char) :
    replaceAll mark replacement (mark ++ rest) =
      replacement ++ replaceAll mark replacement rest := by
  cases mark with
  | nil => exact absurd rfl hmark
  | cons c mark =>
      have hprefix : (c :: mark).isPrefixOf (c :: (mark ++ rest)) = true :=
        List.isPrefixOf_iff_prefix.mpr ⟨rest, rfl⟩
      rw [List.cons_append, replaceAll, if_pos hprefix]
      simp

/-- A replacement that leaves none of what it puts in has found nothing to replace. -/
theorem eq_of_replaceAll_eq {d : Char} {text result : List Char} (hmark : mark ≠ [])
    (hd : d ∉ result) (h : replaceAll mark [d] text = result) : text = result := by
  induction text generalizing result with
  | nil => rwa [replaceAll] at h
  | cons c text ih =>
      by_cases hprefix : mark <+: c :: text
      · obtain ⟨rest, hrest⟩ := hprefix
        rw [← hrest, replaceAll_mark hmark] at h
        exact absurd (h ▸ List.mem_cons_self) hd
      · rw [ replaceAll_cons_of_not_prefix hprefix] at h
        subst h
        exact congrArg (c :: ·) (ih (fun hmem => hd (List.mem_cons_of_mem c hmem)) rfl)

/-- The first that a replacement has put in stands where the mark was, or was there before. -/
theorem exists_of_replaceAll_eq {d : Char} {text back : List Char} (hmark : mark ≠ [])
    (hd : d ∉ front) (h : replaceAll mark [d] text = front ++ d :: back) :
    ∃ rest, replaceAll mark [d] rest = back ∧
      (text = front ++ mark ++ rest ∨ text = front ++ d :: rest) := by
  induction text generalizing front with
  | nil =>
      rw [replaceAll] at h
      exact absurd h.symm (List.append_ne_nil_of_right_ne_nil front (List.cons_ne_nil d back))
  | cons c text ih =>
      by_cases hprefix : mark <+: c :: text
      · obtain ⟨rest, hrest⟩ := hprefix
        rw [← hrest, replaceAll_mark hmark] at h
        cases front with
        | nil => exact ⟨rest, (List.cons.inj h).2, .inl hrest.symm⟩
        | cons e front => exact absurd ((List.cons.inj h).1 ▸ List.mem_cons_self) hd
      · rw [ replaceAll_cons_of_not_prefix hprefix] at h
        cases front with
        | nil =>
            obtain ⟨rfl, hback⟩ := List.cons.inj h
            exact ⟨text, hback, .inr rfl⟩
        | cons e front =>
            obtain ⟨rfl, hlater⟩ := List.cons.inj h
            obtain ⟨rest, hrest, htext⟩ := ih (fun hmem => hd (List.mem_cons_of_mem c hmem)) hlater
            exact ⟨rest, hrest, htext.imp (congrArg (c :: ·)) (congrArg (c :: ·))⟩

theorem isClear_cons_iff {c : Char} {rest : List Char} :
    isClear mark (c :: rest) = true ↔
      ¬ mark <+: c :: rest ∧ ¬ c :: rest <+: mark ∧ isClear mark rest = true := by
  simp only [isClear, Bool.and_eq_true, Bool.not_eq_true', ← Bool.not_eq_true,
    List.isPrefixOf_iff_prefix, and_assoc]

theorem passes_of_isClear (h : isClear mark piece = true) : Passes mark piece := by
  induction piece with
  | nil => exact passes_nil
  | cons c piece ih =>
      obtain ⟨hmark, hpiece, hlater⟩ := isClear_cons_iff.mp h
      intro replacement rest
      have hprefix : ¬ mark <+: c :: (piece ++ rest) := by
        intro hwhole
        have hstart : c :: piece <+: c :: (piece ++ rest) := ⟨rest, List.cons_append⟩
        rcases List.prefix_or_prefix_of_prefix hwhole hstart with hshort | hlong
        · exact hmark hshort
        · exact hpiece hlong
      rw [List.cons_append, replaceAll_cons_of_not_prefix hprefix, ih hlater, List.cons_append]

theorem isClear_of_head {c : Char} (hmark : mark.head? = some c) (hpiece : c ∉ piece) :
    isClear mark piece = true := by
  obtain ⟨rest, rfl⟩ := List.head?_eq_some_iff.mp hmark
  induction piece with
  | nil => rfl
  | cons d piece ih =>
      have hne : c ≠ d := fun heq => hpiece (heq ▸ List.mem_cons_self)
      have hlater := ih fun hmem => hpiece (List.mem_cons_of_mem d hmem)
      refine isClear_cons_iff.mpr ⟨?_, ?_, hlater⟩
      · exact fun h => hne (List.cons_prefix_cons.mp h).1
      · exact fun h => hne (List.cons_prefix_cons.mp h).1.symm

/-- A piece lacks one character of the mark, and its last one is none of the mark. -/
theorem isClear_of_stop {stop needed : Char} (hneeded : needed ∈ mark) (hstop : stop ∉ mark)
    (hfront : needed ∉ front) : isClear mark (front ++ [stop]) = true := by
  have hne : needed ≠ stop := fun heq => hstop (heq ▸ hneeded)
  induction front with
  | nil =>
      refine isClear_cons_iff.mpr ⟨fun h => ?_, fun h => ?_, rfl⟩
      · exact hne (List.mem_singleton.mp (h.subset hneeded))
      · exact hstop (h.subset (List.mem_singleton_self stop))
  | cons c front ih =>
      have hlater := ih fun hmem => hfront (List.mem_cons_of_mem c hmem)
      refine isClear_cons_iff.mpr ⟨fun h => ?_, fun h => ?_, hlater⟩
      · have hwhole : needed ∈ (c :: front) ++ [stop] := h.subset hneeded
        rcases List.mem_append.mp hwhole with hmem | hmem
        · exact hfront hmem
        · exact hne (List.mem_singleton.mp hmem)
      · exact hstop (h.subset (List.mem_append_right (c :: front) (List.mem_singleton_self stop)))

/-- The mark begins with an angle bracket, or it holds the other one only. -/
def IsTagMark (mark : List Char) : Prop :=
  mark.head? = some '<' ∨ ('<' ∉ mark ∧ '>' ∈ mark)

instance (mark : List Char) : Decidable (IsTagMark mark) :=
  inferInstanceAs (Decidable (_ ∨ _))

/-- Text without angle brackets goes with the markup behind it. -/
theorem IsTagMark.passes_text (hmark : IsTagMark mark) {content markup : List Char}
    (hcontent : ∀ c ∈ content, c ≠ '<' ∧ c ≠ '>') (hmarkup : Passes mark ('<' :: markup)) :
    Passes mark (content ++ '<' :: markup) := by
  have hopen : '<' ∉ content := fun hmem => (hcontent _ hmem).1 rfl
  have hclose : '>' ∉ content := fun hmem => (hcontent _ hmem).2 rfl
  rcases hmark with hhead | ⟨hstop, hneeded⟩
  · exact (passes_of_isClear (isClear_of_head hhead hopen)).append hmarkup
  · -- The text may end in the start of a mark, so it is passed over with the bracket behind it.
    intro replacement rest
    have hbracket : ¬ mark <+: '<' :: (markup ++ rest) := by
      intro h
      cases mark with
      | nil => cases hneeded
      | cons c mark => exact hstop ((List.cons_prefix_cons.mp h).1 ▸ List.mem_cons_self)
    have hfirst := passes_of_isClear (isClear_of_stop hneeded hstop hclose) replacement
      (markup ++ rest)
    have hrest := hmarkup replacement rest
    rw [List.cons_append, replaceAll_cons_of_not_prefix hbracket] at hrest
    simp only [List.append_assoc, List.cons_append, List.nil_append] at hfirst ⊢
    rw [hfirst, (List.cons.inj hrest).2]
    rfl

end PanelRelay
