import PanelRelay.Proofs.Json.Spelling

/-!
Reading strings undoes their spelling, and what is read is spelled. The scanner sees one escape at a
time; the surrogates that make up a character are joined afterwards.
-/

namespace PanelRelay.Json

namespace Piece

theorem isSurrogate_toNat (c : Char) :
    (Utf16.isHighSurrogate c.toNat || Utf16.isLowSurrogate c.toNat) = false := by
  have hvalid : c.toNat < 0xd800 ∨ (0xdfff < c.toNat ∧ c.toNat < 0x110000) := c.valid
  simp only [Utf16.isHighSurrogate, Utf16.isLowSurrogate, Bool.or_eq_false_iff,
    Bool.and_eq_false_iff, decide_eq_false_iff_not]
  omega

theorem ofUnit_toNat (c : Char) : ofUnit c.toNat = .char c := by
  rw [ofUnit, isSurrogate_toNat, if_neg Bool.false_ne_true, Char.ofNat_toNat]

theorem ofUnit_surrogate {unit : Nat}
    (h : (Utf16.isHighSurrogate unit || Utf16.isLowSurrogate unit) = true) :
    ofUnit unit = .surrogate unit :=
  if_pos h

theorem hexDigit?_lt {c : Char} {n : Nat} (h : hexDigit? c = some n) : n < 16 := by
  have hrange : ∀ {first last : Char}, first ≤ c ∧ c ≤ last →
      first.toNat ≤ c.toNat ∧ c.toNat ≤ last.toNat := fun hc => hc
  rw [hexDigit?] at h
  split_ifs at h with hc hc hc
  all_goals
    have hbounds := hrange hc
    cases h
    simp only [Char.reduceToNat] at hbounds ⊢
    omega

theorem isSpelledBy_ofUnit {unit : Nat} {digits : List Char} (h : IsUnitSpelling unit digits) :
    (ofUnit unit).IsSpelledBy ('\\' :: 'u' :: digits) := by
  cases hsurrogate : Utf16.isHighSurrogate unit || Utf16.isLowSurrogate unit with
  | true =>
      rw [ofUnit_surrogate hsurrogate]
      exact .lone hsurrogate h
  | false =>
      have hvalue : (Char.ofNat unit).toNat = unit := by
        have hsmall : unit < 0x10000 := by
          obtain ⟨ha, hb, hc, hd⟩ := h
          have ha := hexDigit?_lt ha
          have hb := hexDigit?_lt hb
          have hc := hexDigit?_lt hc
          have hd := hexDigit?_lt hd
          omega
        simp only [Utf16.isHighSurrogate, Utf16.isLowSurrogate, Bool.or_eq_false_iff,
          Bool.and_eq_false_iff, decide_eq_false_iff_not] at hsurrogate
        have hvalid : unit.isValidChar := by
          rw [Nat.isValidChar]
          omega
        rw [Char.ofNat, dif_pos hvalid]
        rfl
      rw [ofUnit, hsurrogate, if_neg Bool.false_ne_true]
      exact .unit (hvalue.symm ▸ h)

end Piece

theorem isUnitSpelling_of_hexUnit? {a b c d : Char} {unit : Nat}
    (h : hexUnit? a b c d = some unit) : IsUnitSpelling unit [a, b, c, d] := by
  simp only [hexUnit?, Option.bind_eq_bind, Option.bind_eq_some_iff] at h
  obtain ⟨i, ha, j, hb, k, hc, l, hd, heq⟩ := h
  cases heq
  exact .digits ha hb hc hd

theorem not_isHighSurrogate_of_isLowSurrogate {unit : Nat} (h : Utf16.isLowSurrogate unit = true) :
    Utf16.isHighSurrogate unit = false := by
  simp only [Utf16.isLowSurrogate, Bool.and_eq_true, decide_eq_true_eq] at h
  simp only [Utf16.isHighSurrogate, Bool.and_eq_false_iff, decide_eq_false_iff_not]
  omega

section Scanning

variable {text rest : List Char} {content : List Piece}
  (hbody : stringBody text = some (content, rest))

include hbody

theorem stringBody_unit {unit : Nat} {digits : List Char} (h : IsUnitSpelling unit digits) :
    stringBody ('\\' :: 'u' :: (digits ++ text)) = some (.ofUnit unit :: content, rest) := by
  obtain ⟨ha, hb, hc, hd⟩ := h
  simp [stringBody, hexUnit?, ha, hb, hc, hd, hbody]

theorem stringBody_short {c letter : Char} (h : shortEscape? letter = some c) :
    stringBody ('\\' :: letter :: text) = some (.char c :: content, rest) := by
  have hletter : letter ≠ 'u' := by
    rintro rfl
    cases h
  rw [stringBody]
  · simp [h, hbody]
  · rintro _ _ _ _ _ heq
    exact absurd heq hletter

theorem stringBody_plain {c : Char} (hspace : ' ' ≤ c) (hquote : c ≠ '"') (hback : c ≠ '\\') :
    stringBody (c :: text) = some (.char c :: content, rest) := by
  rw [stringBody, if_neg (Char.not_lt.mpr hspace), hbody]
  · rfl
  · exact hquote
  all_goals
    intros
    exact absurd ‹_› hback

end Scanning

section Joining

theorem joinSurrogates_char (c : Char) (content : List Piece) :
    joinSurrogates (.char c :: content) = .char c :: joinSurrogates content := by
  rw [joinSurrogates]
  rintro high low rest heq
  cases heq

theorem joinSurrogates_pair {high low : Nat} (hhigh : Utf16.isHighSurrogate high = true)
    (hlow : Utf16.isLowSurrogate low = true) (content : List Piece) :
    joinSurrogates (.surrogate high :: .surrogate low :: content) =
      .char (Utf16.join high low) :: joinSurrogates content := by
  rw [joinSurrogates, if_pos (by rw [hhigh, hlow]; rfl)]

theorem joinSurrogates_unpaired {unit : Nat} {content : List Piece}
    (h : ∀ next ∈ content.head?, ¬ Piece.Completes (.surrogate unit) next) :
    joinSurrogates (.surrogate unit :: content) = .surrogate unit :: joinSurrogates content := by
  cases content with
  | nil =>
      rw [joinSurrogates]
      rintro high low rest - heq
      cases heq
  | cons next content =>
      cases next with
      | char c =>
          rw [joinSurrogates]
          rintro high low rest - heq
          cases heq
      | surrogate low =>
          have hpair : ¬ (Utf16.isHighSurrogate unit && Utf16.isLowSurrogate low) = true := by
            rw [Bool.and_eq_true]
            exact h _ rfl
          rw [joinSurrogates, if_neg hpair]

theorem joinSurrogates_low {unit : Nat} (h : Utf16.isLowSurrogate unit = true)
    (content : List Piece) :
    joinSurrogates (.surrogate unit :: content) = .surrogate unit :: joinSurrogates content := by
  apply joinSurrogates_unpaired
  rintro (c | low) -
  · exact id
  · rintro ⟨hhigh, -⟩
    rw [not_isHighSurrogate_of_isLowSurrogate h] at hhigh
    cases hhigh

/-- A surrogate stays as it is, if what comes out behind it does not complete it. -/
theorem joinSurrogates_lone {unit : Nat} {content : List Piece}
    (h : ∀ next ∈ (joinSurrogates content).head?, ¬ Piece.Completes (.surrogate unit) next) :
    joinSurrogates (.surrogate unit :: content) = .surrogate unit :: joinSurrogates content := by
  apply joinSurrogates_unpaired
  intro next hnext hcompletes
  obtain ⟨rest, rfl⟩ := List.head?_eq_some_iff.mp (Option.mem_def.mp hnext)
  cases next with
  | char c => exact hcompletes
  | surrogate low =>
      rw [joinSurrogates_low hcompletes.2] at h
      exact h _ rfl hcompletes

theorem head?_joinSurrogates {piece next : Piece} {content : List Piece}
    (h : next ∈ (joinSurrogates (piece :: content)).head?) :
    next = piece ∨ ∃ c, next = .char c := by
  unfold joinSurrogates at h
  split at h
  next high low rest heq =>
    split at h
    next => exact .inr ⟨_, (Option.mem_some.mp h).symm⟩
    next => exact .inl ((Option.mem_some.mp h).symm.trans (List.cons.inj heq).1.symm)
  next heq => exact .inl ((Option.mem_some.mp h).symm.trans (List.cons.inj heq).1.symm)
  next heq => cases heq

theorem not_completes_joinSurrogates {piece : Piece} {content : List Piece}
    (h : ∀ next ∈ content.head?, ¬ piece.Completes next) :
    ∀ next ∈ (joinSurrogates content).head?, ¬ piece.Completes next := by
  intro next hnext
  cases content with
  | nil => cases hnext
  | cons first content =>
      rcases head?_joinSurrogates hnext with rfl | ⟨c, rfl⟩
      · exact h next rfl
      · cases piece <;> exact id

/-- Reading a spelled string yields its pieces, once the surrogates in it are joined. -/
theorem stringBody_append {content : List Piece} {text : List Char}
    (h : IsStringSpelling content text) (rest : List Char) :
    ∃ raw, stringBody (text ++ '"' :: rest) = some (raw, rest) ∧ joinSurrogates raw = content := by
  obtain ⟨hpieces, hapart⟩ := h
  induction hpieces with
  | nil => exact ⟨[], rfl, rfl⟩
  | @cons piece content front text hpiece hpieces ih =>
      obtain ⟨hnext, hapart⟩ := List.isChain_cons.mp hapart
      obtain ⟨raw, hbody, rfl⟩ := ih hapart
      rw [List.append_assoc]
      cases hpiece with
      | plain hspace hquote hback =>
          exact ⟨_, stringBody_plain hbody hspace hquote hback, joinSurrogates_char _ raw⟩
      | short hletter => exact ⟨_, stringBody_short hbody hletter, joinSurrogates_char _ raw⟩
      | unit hdigits =>
          refine ⟨_, stringBody_unit hbody hdigits, ?_⟩
          rw [Piece.ofUnit_toNat, joinSurrogates_char]
      | @pair high low front back hhigh hlow hfront hback =>
          have hread := stringBody_unit (stringBody_unit hbody hback) hfront
          rw [Piece.ofUnit_surrogate (by rw [hhigh]; rfl),
            Piece.ofUnit_surrogate (by rw [hlow, Bool.or_true])] at hread
          refine ⟨_, ?_, joinSurrogates_pair hhigh hlow raw⟩
          simpa using hread
      | lone hunit hdigits =>
          refine ⟨_, stringBody_unit hbody hdigits, ?_⟩
          rw [Piece.ofUnit_surrogate hunit, joinSurrogates_lone hnext]

/-- What the scanner reads is spelled piece by piece. -/
theorem stringBody_spec {text rest : List Char} {raw : List Piece}
    (h : stringBody text = some (raw, rest)) :
    ∃ front, text = front ++ '"' :: rest ∧ ArePiecesSpelledBy raw front := by
  fun_induction stringBody text generalizing raw rest with
  | case1 => cases h
  | case2 =>
      cases h
      exact ⟨[], rfl, .nil⟩
  | case3 a b c d text ih =>
      simp only [Option.bind_eq_bind, Option.bind_eq_some_iff] at h
      obtain ⟨unit, hunit, ⟨inner, remaining⟩, hinner, heq⟩ := h
      cases heq
      obtain ⟨front, rfl, hfront⟩ := ih hinner
      exact ⟨_, rfl, .cons (Piece.isSpelledBy_ofUnit (isUnitSpelling_of_hexUnit? hunit)) hfront⟩
  | case4 escape text _ ih =>
      simp only [Option.bind_eq_bind, Option.bind_eq_some_iff] at h
      obtain ⟨c, hletter, ⟨inner, remaining⟩, hinner, heq⟩ := h
      cases heq
      obtain ⟨front, rfl, hfront⟩ := ih hinner
      exact ⟨_, rfl, .cons (.short hletter) hfront⟩
  | case5 => cases h
  | case6 c text hquote _ hescape hspace ih =>
      simp only [Option.bind_eq_bind, Option.bind_eq_some_iff] at h
      obtain ⟨⟨inner, remaining⟩, hinner, heq⟩ := h
      cases heq
      obtain ⟨front, rfl, hfront⟩ := ih hinner
      have hback : c ≠ '\\' := by
        intro hc
        obtain ⟨escape, behind, heq⟩ :=
          List.exists_cons_of_ne_nil (show front ++ '"' :: remaining ≠ [] by simp)
        exact hescape escape behind hc heq
      exact ⟨_, rfl, .cons (.plain (Char.not_lt.mp hspace) hquote hback) hfront⟩

/-- Joining surrogates spells the same text with pairs for what they make up. -/
theorem isStringSpelling_joinSurrogates {raw : List Piece} {text : List Char}
    (h : ArePiecesSpelledBy raw text) : IsStringSpelling (joinSurrogates raw) text := by
  induction raw using joinSurrogates.induct generalizing text with
  | case1 high low rest hjoin ih =>
      rw [Bool.and_eq_true] at hjoin
      rw [joinSurrogates_pair hjoin.1 hjoin.2]
      cases h with
      | cons hhigh h =>
      cases h with
      | cons hlow h =>
      cases hhigh with
      | lone _ hfront =>
      cases hlow with
      | lone _ hback =>
      obtain ⟨hpieces, hapart⟩ := ih h
      have hpair := ArePiecesSpelledBy.cons (.pair hjoin.1 hjoin.2 hfront hback) hpieces
      refine ⟨by simpa using hpair, List.isChain_cons.mpr ⟨fun _ _ => id, hapart⟩⟩
  | case2 high low rest hjoin ih =>
      have hpair : ¬ Piece.Completes (.surrogate high) (.surrogate low) := by
        rwa [Bool.and_eq_true] at hjoin
      have hnext : ∀ next ∈ (Piece.surrogate low :: rest).head?,
          ¬ Piece.Completes (.surrogate high) next := by
        rintro next hnext
        rwa [← Option.mem_some.mp hnext]
      rw [joinSurrogates_unpaired hnext]
      cases h with
      | cons hhigh h =>
      obtain ⟨hpieces, hapart⟩ := ih h
      exact ⟨.cons hhigh hpieces,
        List.isChain_cons.mpr ⟨not_completes_joinSurrogates hnext, hapart⟩⟩
  | case3 piece rest hpair ih =>
      cases h with
      | cons hpiece h =>
      obtain ⟨hpieces, hapart⟩ := ih h
      have hnext : ∀ next ∈ rest.head?, ¬ piece.Completes next := by
        intro next hnext hcompletes
        obtain ⟨behind, rfl⟩ := List.head?_eq_some_iff.mp (Option.mem_def.mp hnext)
        cases piece with
        | char c => exact hcompletes
        | surrogate high =>
            cases next with
            | char c => exact hcompletes
            | surrogate low => exact hpair high low behind rfl rfl
      rw [joinSurrogates]
      · exact ⟨.cons hpiece hpieces,
          List.isChain_cons.mpr ⟨not_completes_joinSurrogates hnext, hapart⟩⟩
      · exact hpair
  | case4 =>
      cases h
      exact ⟨.nil, .nil⟩

end Joining

end PanelRelay.Json
