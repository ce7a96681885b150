import PanelRelay.Proofs.Text.Spelling

/-!
Numerals of a fixed width. A number that is small enough for the width has one, filled up with zeros,
and among numerals of one width the order of the texts is the order of the numbers.
-/

namespace PanelRelay.Decimal

/-- Exactly so many digits, for this number. -/
structure IsNumeral (width n : Nat) (digits : List Char) : Prop where
  length_eq : digits.length = width
  natural?_eq : natural? digits = some n

theorem IsNumeral.unique {width n m : Nat} {digits : List Char} (h : IsNumeral width n digits)
    (hother : IsNumeral width m digits) : n = m :=
  Option.some.inj (h.natural?_eq.symm.trans hother.natural?_eq)

theorem isDigit_of_mem_padded {width n : Nat} {c : Char} (hc : c ∈ padded width n) :
    c.isDigit = true := by
  rcases List.mem_append.mp hc with hzero | hdigit
  · rw [List.eq_of_mem_replicate hzero]
    rfl
  · exact isDigit_of_mem_ofNat hdigit

theorem ofDigitChars_padded (width n : Nat) : Nat.ofDigitChars 10 (padded width n) 0 = n := by
  rw [padded, Nat.ofDigitChars_append, Nat.ofDigitChars_replicate_zero, Nat.mul_zero, ofNat,
    Nat.ofDigitChars_ten_toDigits]

theorem length_padded {width n : Nat} (hwidth : 0 < width) (hn : n < Nat.pow 10 width) :
    (padded width n).length = width := by
  have hlength : (ofNat n).length ≤ width :=
    (Nat.length_toDigits_le_iff (by decide) hwidth).mpr hn
  rw [padded, List.length_append, List.length_replicate]
  omega

theorem isNumeral_padded {width n : Nat} (hwidth : 0 < width) (hn : n < Nat.pow 10 width) :
    IsNumeral width n (padded width n) where
  length_eq := length_padded hwidth hn
  natural?_eq := by
    have hne : padded width n ≠ [] := by
      rw [← List.length_pos_iff, length_padded hwidth hn]
      exact hwidth
    have hdigits : (padded width n).all Char.isDigit = true :=
      List.all_eq_true.mpr fun _ => isDigit_of_mem_padded
    rw [natural?, if_pos ⟨hne, hdigits⟩, ofDigitChars_padded]

/-- The first digit in which two numerals differ decides, whatever stands behind them. -/
theorem append_lt_of_ofDigitChars_lt {front back : List Char}
    (hfront : ∀ c ∈ front, c.isDigit = true) (hback : ∀ c ∈ back, c.isDigit = true)
    (hlength : front.length = back.length) {n m : Nat}
    (h : Nat.ofDigitChars 10 front n < Nat.ofDigitChars 10 back m) (text rest : List Char) :
    n < m ∨ n = m ∧ front ++ text < back ++ rest := by
  induction front generalizing back n m with
  | nil =>
      obtain rfl := List.eq_nil_of_length_eq_zero hlength.symm
      exact .inl (by simpa using h)
  | cons c front ih =>
      obtain ⟨d, back, rfl⟩ := List.exists_cons_of_length_eq_add_one hlength.symm
      obtain ⟨hc, hfront⟩ := List.forall_mem_cons.mp hfront
      obtain ⟨hd, hback⟩ := List.forall_mem_cons.mp hback
      rw [Nat.ofDigitChars_cons, Nat.ofDigitChars_cons] at h
      have hrest := ih hfront hback (Nat.succ.inj hlength) h
      obtain ⟨i, hi, hci, hc⟩ := toNat_digit hc
      obtain ⟨j, hj, hdj, hd⟩ := toNat_digit hd
      rw [hci, hdj] at hrest
      rw [List.cons_append, List.cons_append, List.cons_lt_cons_iff]
      rcases hrest with hlt | ⟨heq, hrest⟩
      · by_cases hnm : n < m
        · exact .inl hnm
        · have hcd : c.toNat < d.toNat := by omega
          exact .inr ⟨by omega, .inl hcd⟩
      · have hcd : c = d := Char.toNat_inj.mp (by omega)
        exact .inr ⟨by omega, .inr ⟨hcd, hrest⟩⟩

theorem padded_append_lt {width n m : Nat} (hwidth : 0 < width) (hnm : n < m)
    (hm : m < Nat.pow 10 width) (text rest : List Char) :
    padded width n ++ text < padded width m ++ rest := by
  have hn : n < Nat.pow 10 width := Nat.lt_trans hnm hm
  have hlength : (padded width n).length = (padded width m).length := by
    rw [length_padded hwidth hn, length_padded hwidth hm]
  have hvalues : Nat.ofDigitChars 10 (padded width n) 0 < Nat.ofDigitChars 10 (padded width m) 0 := by
    rwa [ofDigitChars_padded, ofDigitChars_padded]
  rcases append_lt_of_ofDigitChars_lt (fun _ => isDigit_of_mem_padded)
    (fun _ => isDigit_of_mem_padded) hlength hvalues text rest with hzero | ⟨-, hlt⟩
  · exact absurd hzero (Nat.lt_irrefl 0)
  · exact hlt

/-- Where the numbers agree, what follows the mark behind them decides. -/
theorem padded_mark_lt {width n m : Nat} (hwidth : 0 < width) (hm : m < Nat.pow 10 width)
    {mark : Char} {text rest : List Char} (h : n < m ∨ n = m ∧ text < rest) :
    padded width n ++ mark :: text < padded width m ++ mark :: rest := by
  rcases h with hnm | ⟨rfl, hlt⟩
  · exact padded_append_lt hwidth hnm hm _ _
  · exact List.append_left_lt (List.cons_lt_cons_iff.mpr (.inr ⟨rfl, hlt⟩))

end PanelRelay.Decimal
