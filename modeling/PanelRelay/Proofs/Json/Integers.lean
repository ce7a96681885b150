import PanelRelay.Proofs.Json.Spelling
import PanelRelay.Proofs.Text.Numerals

/-!
Numbers that are integers. A literal of any length is read as the integer that its digits stand for.
A fraction or an exponent makes it no integer, even if its value is one, and nor is a negative zero.
-/

namespace PanelRelay.Json

/-- The literal is nothing but digits, perhaps behind a sign, and it is no negative zero. -/
def IsIntegerLiteral (n : Int) (literal : List Char) : Prop :=
  Decimal.IsInteger n literal ∧ literal ≠ ['-', '0']

section Parts

variable {digits text : List Char}

theorem IsWhole.isNatural (h : IsWhole digits) :
    Decimal.IsNatural (Nat.ofDigitChars 10 digits 0) digits :=
  (Decimal.isNatural_iff _ digits).mpr ⟨h.1.1, h.1.2, rfl⟩

theorem isInteger_sign (negative : Bool) (h : IsWhole digits) :
    Decimal.IsInteger
      (if negative then -(Nat.ofDigitChars 10 digits 0 : Int) else Nat.ofDigitChars 10 digits 0)
      (sign negative ++ digits) := by
  cases negative with
  | true => exact .minus h.isNatural
  | false => exact .bare h.isNatural

/-- Without leading zeros, only one numeral stands for zero. -/
theorem IsWhole.ofDigitChars_eq_zero_iff (h : IsWhole digits) :
    Nat.ofDigitChars 10 digits 0 = 0 ↔ digits = ['0'] := by
  constructor
  · intro hzero
    obtain ⟨⟨hne, hall⟩, halone⟩ := h
    obtain ⟨first, tail, rfl⟩ := List.exists_cons_of_ne_nil hne
    obtain ⟨n, -, hfirst, hchar⟩ := Decimal.toNat_digit (hall first List.mem_cons_self)
    have hn : n = 0 := by
      rw [Nat.ofDigitChars_cons, hfirst, Nat.ofDigitChars_eq_ofDigitChars_zero] at hzero
      have hproduct := (Nat.add_eq_zero_iff.mp hzero).1
      rw [Nat.mul_zero, Nat.zero_add] at hproduct
      exact (Nat.mul_eq_zero.mp hproduct).resolve_left (Nat.pow_pos (by decide)).ne'
    subst hn
    have hstart : first = '0' := Char.toNat_inj.mp hchar
    exact halone (congrArg some hstart)
  · rintro rfl
    rfl

theorem IsFractionSpelling.eq_none_iff {fraction : Option (List Char)}
    (h : IsFractionSpelling fraction text) : fraction = Option.none ↔ text = [] := by
  cases h with
  | none => exact ⟨fun _ => rfl, fun _ => rfl⟩
  | some _ => exact ⟨nofun, nofun⟩

theorem IsExponentSpelling.eq_none_iff {exponent : Option (Bool × List Char)}
    (h : IsExponentSpelling exponent text) : exponent = Option.none ↔ text = [] := by
  cases h with
  | none => exact ⟨fun _ => rfl, fun _ => rfl⟩
  | bare _ _ => exact ⟨nofun, nofun⟩
  | plus _ _ => exact ⟨nofun, nofun⟩
  | minus _ _ => exact ⟨nofun, nofun⟩

theorem IsFractionSpelling.eq_nil {fraction : Option (List Char)}
    (h : IsFractionSpelling fraction text) (hpoint : '.' ∉ text) : text = [] := by
  cases h with
  | none => rfl
  | some _ => exact absurd List.mem_cons_self hpoint

theorem IsExponentSpelling.eq_nil {exponent : Option (Bool × List Char)}
    (h : IsExponentSpelling exponent text) (hsmall : 'e' ∉ text) (hlarge : 'E' ∉ text) :
    text = [] := by
  have hmark (mark : Char) (h : mark = 'e' ∨ mark = 'E') : mark ∉ text := by
    rcases h with rfl | rfl
    · exact hsmall
    · exact hlarge
  cases h with
  | none => rfl
  | bare h _ => exact absurd List.mem_cons_self (hmark _ h)
  | plus h _ => exact absurd List.mem_cons_self (hmark _ h)
  | minus h _ => exact absurd List.mem_cons_self (hmark _ h)

end Parts

namespace Number

variable {number : Number} {literal : List Char}

def IsPlain (number : Number) : Prop :=
  number.fraction = none ∧ number.exponent = none

theorem IsSpelledBy.eq_of_isPlain (h : number.IsSpelledBy literal) (hplain : number.IsPlain) :
    IsWhole number.whole ∧ literal = sign number.negative ++ number.whole := by
  cases h with
  | parts hwhole hfraction hexponent =>
      obtain rfl := hfraction.eq_none_iff.mp hplain.1
      obtain rfl := hexponent.eq_none_iff.mp hplain.2
      exact ⟨hwhole, by rw [List.append_nil, List.append_nil]⟩

/-- Neither a point nor the mark of an exponent stands in a numeral. -/
theorem IsSpelledBy.isPlain (h : number.IsSpelledBy literal) {n : Int}
    (hinteger : Decimal.IsInteger n literal) : number.IsPlain := by
  have hnot (c : Char) (hc : ¬ (c.isDigit = true ∨ c = '+' ∨ c = '-')) : c ∉ literal :=
    mt hinteger.isDigit_or_sign_of_mem hc
  have hpoint := hnot '.' (by decide)
  have hsmall := hnot 'e' (by decide)
  have hlarge := hnot 'E' (by decide)
  cases h with
  | parts hwhole hfraction hexponent =>
      simp only [List.mem_append, not_or] at hpoint hsmall hlarge
      exact ⟨hfraction.eq_none_iff.mpr (hfraction.eq_nil hpoint.2.2.1),
        hexponent.eq_none_iff.mpr (hexponent.eq_nil hsmall.2.2.2 hlarge.2.2.2)⟩

theorem isPlain_of_integer? {n : Int} (h : number.integer? = some n) : number.IsPlain := by
  rw [integer?] at h
  split at h
  next hplain => exact ⟨Option.isNone_iff_eq_none.mp hplain.1, Option.isNone_iff_eq_none.mp hplain.2⟩
  next => cases h

theorem IsPlain.integer?_eq (h : number.IsPlain) (hwhole : IsWhole number.whole) :
    number.integer? =
      if sign number.negative ++ number.whole = ['-', '0'] then none
      else some (if number.negative then -(Nat.ofDigitChars 10 number.whole 0 : Int)
        else Nat.ofDigitChars 10 number.whole 0) := by
  have hzero := hwhole.ofDigitChars_eq_zero_iff
  have hparts : number.fraction.isNone ∧ number.exponent.isNone := by
    rw [h.1, h.2]
    exact ⟨rfl, rfl⟩
  rw [integer?, if_pos hparts]
  cases number.negative with
  | true =>
      simp [sign, hzero]
  | false =>
      have hdigits : number.whole ≠ ['-', '0'] := by
        intro heq
        exact absurd (hwhole.1.2 '-' (heq ▸ List.mem_cons_self)) (by decide)
      simp [sign, hdigits]

/-- A literal is read as an integer exactly if it is an integer literal, and as that integer. -/
theorem integer?_eq_some_iff (h : number.IsSpelledBy literal) (n : Int) :
    number.integer? = some n ↔ IsIntegerLiteral n literal := by
  constructor
  · intro hread
    have hplain := isPlain_of_integer? hread
    obtain ⟨hwhole, rfl⟩ := h.eq_of_isPlain hplain
    rw [hplain.integer?_eq hwhole] at hread
    split at hread
    next => cases hread
    next hne =>
      obtain rfl := Option.some.inj hread
      exact ⟨isInteger_sign number.negative hwhole, hne⟩
  · rintro ⟨hinteger, hne⟩
    have hplain := h.isPlain hinteger
    obtain ⟨hwhole, rfl⟩ := h.eq_of_isPlain hplain
    rw [hplain.integer?_eq hwhole, if_neg hne,
      hinteger.unique (isInteger_sign number.negative hwhole)]

end Number

theorem Value.isWrittenAs_number {number : Number} {literal : List Char}
    (h : number.IsSpelledBy literal) :
    (Value.number number).IsWrittenAs (String.ofList literal) := by
  have hspelled : AreSpelledBy [.number number] ([] ++ (literal ++ [])) :=
    .cons nofun h (.nil nofun)
  rwa [List.nil_append, List.append_nil, ← String.toList_ofList (l := literal)] at hspelled

end PanelRelay.Json
