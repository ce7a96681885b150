import PanelRelay.Proofs.Json.Spelling

/-!
Reading numbers undoes their spelling, and what is read is spelled. Every scanner takes as many
digits as it can, so that a number is read back only if nothing behind it could belong to it.
-/

namespace PanelRelay.Json

section Numbers

variable {digits text rest : List Char}

theorem takeDigits_append (hdigits : ∀ c ∈ digits, c.isDigit = true)
    (hrest : ∀ c ∈ rest.head?, c.isDigit = false) :
    takeDigits (digits ++ rest) = (digits, rest) := by
  have hstop : rest.takeWhile Char.isDigit = [] ∧ rest.dropWhile Char.isDigit = rest := by
    cases rest with
    | nil => exact ⟨rfl, rfl⟩
    | cons c rest =>
        have hc := hrest c rfl
        simp [hc]
  rw [takeDigits, List.takeWhile_append_of_pos hdigits, List.dropWhile_append_of_pos hdigits,
    hstop.1, hstop.2, List.append_nil]

theorem takeDigits_spec (text : List Char) :
    text = (takeDigits text).1 ++ (takeDigits text).2 ∧
      ∀ c ∈ (takeDigits text).1, c.isDigit = true := by
  refine ⟨List.takeWhile_append_dropWhile.symm, ?_⟩
  intro c hc
  exact List.all_eq_true.mp List.all_takeWhile c hc

theorem wholePart?_append (hdigits : IsWhole digits)
    (hrest : ∀ c ∈ rest.head?, c.isDigit = false) :
    wholePart? (digits ++ rest) = some (digits, rest) := by
  obtain ⟨⟨hne, hall⟩, hzero⟩ := hdigits
  cases digits with
  | nil => exact absurd rfl hne
  | cons c digits =>
      by_cases hc : c = '0'
      · subst hc
        obtain rfl := (List.cons.inj (hzero rfl)).2
        rfl
      · have htaken := takeDigits_append hall hrest
        rw [List.cons_append] at htaken ⊢
        rw [wholePart?, htaken]
        · rfl
        · rintro tail heq
          exact hc (List.cons.inj heq).1

theorem wholePart?_spec (h : wholePart? text = some (digits, rest)) :
    text = digits ++ rest ∧ IsWhole digits := by
  unfold wholePart? at h
  split at h
  next rest =>
    cases h
    exact ⟨rfl, ⟨by simp, by simp⟩, fun _ => rfl⟩
  next hzero =>
    obtain ⟨htext, hall⟩ := takeDigits_spec text
    by_cases hne : (takeDigits text).1 = []
    · simp [hne] at h
    · simp only [if_neg hne, Option.some.injEq] at h
      rw [h] at htext hall hne
      refine ⟨htext, ⟨hne, hall⟩, ?_⟩
      intro hhead
      exfalso
      obtain ⟨tail, rfl⟩ := List.head?_eq_some_iff.mp hhead
      exact hzero _ htext

theorem fraction?_append {fraction : Option (List Char)} (h : IsFractionSpelling fraction text)
    (hrest : ∀ c ∈ rest.head?, c.isDigit = false ∧ c ≠ '.') :
    fraction? (text ++ rest) = some (fraction, rest) := by
  cases h with
  | none =>
      rw [List.nil_append]
      cases rest with
      | nil => rfl
      | cons c rest =>
          rw [fraction?]
          rintro tail heq
          exact (hrest c rfl).2 (List.cons.inj heq).1
  | some hdigits =>
      have htaken := takeDigits_append hdigits.2 fun c hc => (hrest c hc).1
      rw [List.cons_append, fraction?, htaken]
      exact if_neg hdigits.1

theorem fraction?_spec {fraction : Option (List Char)}
    (h : fraction? text = some (fraction, rest)) :
    ∃ front, text = front ++ rest ∧ IsFractionSpelling fraction front := by
  unfold fraction? at h
  split at h
  next text =>
    obtain ⟨htext, hall⟩ := takeDigits_spec text
    by_cases hne : (takeDigits text).1 = []
    · simp [hne] at h
    · simp only [if_neg hne, Option.some.injEq, Prod.mk.injEq] at h
      obtain ⟨rfl, hrest⟩ := h
      rw [hrest] at htext
      exact ⟨'.' :: (takeDigits text).1, congrArg (List.cons '.') htext, .some ⟨hne, hall⟩⟩
  next =>
    cases h
    exact ⟨[], rfl, .none⟩

theorem exponentDigits?_append (negative : Bool) (hdigits : AreDigits digits)
    (hrest : ∀ c ∈ rest.head?, c.isDigit = false) :
    exponentDigits? negative (digits ++ rest) = some (some (negative, digits), rest) := by
  rw [exponentDigits?, takeDigits_append hdigits.2 hrest]
  exact if_neg hdigits.1

theorem exponentDigits?_spec {negative : Bool} {exponent : Option (Bool × List Char)}
    (h : exponentDigits? negative text = some (exponent, rest)) :
    ∃ digits, exponent = some (negative, digits) ∧ text = digits ++ rest ∧ AreDigits digits := by
  obtain ⟨htext, hall⟩ := takeDigits_spec text
  by_cases hne : (takeDigits text).1 = []
  · simp [exponentDigits?, hne] at h
  · simp only [exponentDigits?, if_neg hne, Option.some.injEq, Prod.mk.injEq] at h
    obtain ⟨rfl, hrest⟩ := h
    rw [hrest] at htext
    exact ⟨_, rfl, htext, hne, hall⟩

/-- Nothing that could belong to a number in front of it stands at the start of the text. -/
def EndsNumber (rest : List Char) : Prop :=
  ∀ c ∈ rest.head?, c.isDigit = false ∧ c ≠ '.' ∧ c ≠ 'e' ∧ c ≠ 'E'

theorem exponent?_append {exponent : Option (Bool × List Char)}
    (h : IsExponentSpelling exponent text) (hrest : EndsNumber rest) :
    exponent? (text ++ rest) = some (exponent, rest) := by
  have hdigit : ∀ c ∈ rest.head?, c.isDigit = false := fun c hc => (hrest c hc).1
  cases h with
  | none =>
      rw [List.nil_append]
      cases rest with
      | nil => rfl
      | cons c rest =>
          have hmark : ¬ (c = 'e' ∨ c = 'E') := not_or.mpr (hrest c rfl).2.2
          exact if_neg hmark
  | @bare mark digits hmark hdigits =>
      have hread := exponentDigits?_append false hdigits hdigit
      obtain ⟨first, tail, rfl⟩ := List.exists_cons_of_ne_nil hdigits.1
      have hfirst := hdigits.2 first List.mem_cons_self
      have hsign : first ≠ '-' ∧ first ≠ '+' := by
        constructor <;> rintro rfl <;> exact absurd hfirst (by decide)
      rw [List.cons_append] at hread
      unfold exponent?
      simp only [List.cons_append, if_pos hmark]
      split
      next heq => exact absurd (List.cons.inj heq).1 hsign.1
      next heq => exact absurd (List.cons.inj heq).1 hsign.2
      next => exact hread
  | plus hmark hdigits =>
      exact (if_pos hmark).trans (exponentDigits?_append false hdigits hdigit)
  | minus hmark hdigits =>
      exact (if_pos hmark).trans (exponentDigits?_append true hdigits hdigit)

theorem exponent?_spec {exponent : Option (Bool × List Char)}
    (h : exponent? text = some (exponent, rest)) :
    ∃ front, text = front ++ rest ∧ IsExponentSpelling exponent front := by
  unfold exponent? at h
  split at h
  next mark text =>
    split at h
    next hmark =>
      split at h
      · obtain ⟨digits, rfl, rfl, hdigits⟩ := exponentDigits?_spec h
        exact ⟨mark :: '-' :: digits, rfl, .minus hmark hdigits⟩
      · obtain ⟨digits, rfl, rfl, hdigits⟩ := exponentDigits?_spec h
        exact ⟨mark :: '+' :: digits, rfl, .plus hmark hdigits⟩
      · obtain ⟨digits, rfl, rfl, hdigits⟩ := exponentDigits?_spec h
        exact ⟨mark :: digits, rfl, .bare hmark hdigits⟩
    next =>
      cases h
      exact ⟨[], rfl, .none⟩
  next =>
    cases h
    exact ⟨[], rfl, .none⟩

theorem head?_exponent {exponent : Option (Bool × List Char)}
    (h : IsExponentSpelling exponent text) (hrest : EndsNumber rest) :
    ∀ c ∈ (text ++ rest).head?, c.isDigit = false ∧ c ≠ '.' := by
  have hmark : ∀ mark : Char, mark = 'e' ∨ mark = 'E' → mark.isDigit = false ∧ mark ≠ '.' := by
    rintro mark (rfl | rfl) <;> decide
  cases h with
  | none => exact fun c hc => ⟨(hrest c hc).1, (hrest c hc).2.1⟩
  | bare h _ => exact fun c hc => Option.mem_some.mp hc ▸ hmark _ h
  | plus h _ => exact fun c hc => Option.mem_some.mp hc ▸ hmark _ h
  | minus h _ => exact fun c hc => Option.mem_some.mp hc ▸ hmark _ h

theorem head?_fraction {fraction : Option (List Char)} (h : IsFractionSpelling fraction text)
    (hrest : ∀ c ∈ rest.head?, c.isDigit = false ∧ c ≠ '.') :
    ∀ c ∈ (text ++ rest).head?, c.isDigit = false := by
  cases h with
  | none => exact fun c hc => (hrest c hc).1
  | some _ => exact fun c hc => Option.mem_some.mp hc ▸ rfl

theorem magnitude?_append {number : Number} {fraction exponent : List Char}
    (hwhole : IsWhole number.whole) (hfraction : IsFractionSpelling number.fraction fraction)
    (hexponent : IsExponentSpelling number.exponent exponent) (hrest : EndsNumber rest) :
    magnitude? number.negative (number.whole ++ (fraction ++ exponent) ++ rest) =
      some (number, rest) := by
  have hhead := head?_exponent hexponent hrest
  have hbehind := head?_fraction hfraction hhead
  simp only [List.append_assoc, magnitude?, wholePart?_append hwhole hbehind,
    fraction?_append hfraction hhead, exponent?_append hexponent hrest, Option.bind_eq_bind,
    Option.bind_some]
  rfl

theorem magnitude?_spec {negative : Bool} {number : Number}
    (h : magnitude? negative text = some (number, rest)) :
    number.negative = negative ∧ ∃ fraction exponent,
      text = number.whole ++ (fraction ++ exponent) ++ rest ∧ IsWhole number.whole ∧
        IsFractionSpelling number.fraction fraction ∧
        IsExponentSpelling number.exponent exponent := by
  simp only [magnitude?, Option.bind_eq_bind, Option.bind_eq_some_iff] at h
  obtain ⟨⟨whole, first⟩, hwhole, ⟨fraction, second⟩, hfraction, ⟨exponent, third⟩, hexponent,
    heq⟩ := h
  cases heq
  obtain ⟨rfl, hdigits⟩ := wholePart?_spec hwhole
  obtain ⟨fractionText, rfl, hpoint⟩ := fraction?_spec hfraction
  obtain ⟨exponentText, rfl, hmark⟩ := exponent?_spec hexponent
  refine ⟨rfl, fractionText, exponentText, ?_, hdigits, hpoint, hmark⟩
  simp only [List.append_assoc]

theorem number?_append {number : Number} (h : number.IsSpelledBy text) (hrest : EndsNumber rest) :
    number? (text ++ rest) = some (number, rest) := by
  obtain ⟨hwhole, hfraction, hexponent⟩ := h
  have hread := magnitude?_append hwhole hfraction hexponent hrest
  cases hnegative : number.negative with
  | true =>
      rw [hnegative] at hread
      rw [sign, if_pos rfl, List.append_assoc, List.singleton_append, number?, hread]
  | false =>
      rw [hnegative] at hread
      rw [sign, if_neg Bool.false_ne_true, List.nil_append, number?, hread]
      rintro tail heq
      obtain ⟨⟨hne, hall⟩, -⟩ := hwhole
      obtain ⟨first, digits, hfirst⟩ := List.exists_cons_of_ne_nil hne
      have hdigit := hall first (hfirst ▸ List.mem_cons_self)
      rw [hfirst] at heq
      rw [(List.cons.inj heq).1] at hdigit
      exact absurd hdigit (by decide)

theorem number?_spec {number : Number} (h : number? text = some (number, rest)) :
    ∃ front, text = front ++ rest ∧ number.IsSpelledBy front := by
  unfold number? at h
  split at h
  all_goals
    obtain ⟨hnegative, fraction, exponent, rfl, hwhole, hfraction, hexponent⟩ := magnitude?_spec h
    refine ⟨_, ?_, .parts hwhole hfraction hexponent⟩
    rw [hnegative]
    rfl

theorem isSpelledBy_of_number? {number : Number} (h : number? text = some (number, [])) :
    number.IsSpelledBy text := by
  obtain ⟨front, rfl, hfront⟩ := number?_spec h
  rwa [List.append_nil]

end Numbers

end PanelRelay.Json
