import Mathlib.Data.List.Induction
import PanelRelay.Proofs.Text.Spelling

/-!
Numerals of any length. What a text is read as is the number that its digits stand for, and there is
none if the digits are followed by anything else; a word of fixed width holds the number itself or is
not made.
-/

namespace PanelRelay

def AreWhiteSpace (text : List Char) : Prop :=
  ∀ c ∈ text, isWhiteSpace c = true

theorem trim_append_front {front : List Char} (hfront : AreWhiteSpace front) (text : List Char) :
    trim (front ++ text) = trim text := by
  rw [trim, trim, List.dropWhile_append_of_pos hfront]

theorem trim_append_back {back : List Char} (hback : AreWhiteSpace back) (text : List Char) :
    trim (text ++ back) = trim text := by
  have hdropped : back.dropWhile isWhiteSpace = [] := by
    have h := @List.dropWhile_append_of_pos _ isWhiteSpace back [] hback
    rwa [List.append_nil] at h
  rw [trim, trim, List.dropWhile_append]
  split
  next hempty => rw [hdropped, List.isEmpty_iff.mp hempty]
  next => exact dropEndWhile_append_of_all _ back (List.all_eq_true.mpr hback)

/-- Only white space is trimmed, from either end. -/
theorem exists_trim (text : List Char) :
    ∃ front back, AreWhiteSpace front ∧ AreWhiteSpace back ∧
      text = front ++ (trim text ++ back) := by
  have hwhite (text : List Char) : AreWhiteSpace (text.takeWhile isWhiteSpace) :=
    List.all_eq_true.mp List.all_takeWhile
  let rest := text.dropWhile isWhiteSpace
  refine ⟨text.takeWhile isWhiteSpace, (rest.reverse.takeWhile isWhiteSpace).reverse, hwhite text,
    fun c hc => hwhite rest.reverse c (List.mem_reverse.mp hc), ?_⟩
  rw [trim, dropEndWhile, ← List.reverse_append, List.takeWhile_append_dropWhile,
    List.reverse_reverse, List.takeWhile_append_dropWhile]

namespace Decimal

/-- One or more digits, and the number that they stand for. -/
inductive IsNatural : Nat → List Char → Prop
  | digit {c : Char} : c.isDigit = true → IsNatural (c.toNat - '0'.toNat) [c]
  | append {n : Nat} {digits : List Char} {c : Char} :
      IsNatural n digits → c.isDigit = true →
      IsNatural (10 * n + (c.toNat - '0'.toNat)) (digits ++ [c])

/-- The digits of a number, perhaps behind a sign. -/
inductive IsInteger : Int → List Char → Prop
  | bare {n : Nat} {digits : List Char} : IsNatural n digits → IsInteger n digits
  | plus {n : Nat} {digits : List Char} : IsNatural n digits → IsInteger n ('+' :: digits)
  | minus {n : Nat} {digits : List Char} : IsNatural n digits → IsInteger (-n) ('-' :: digits)

/-- A numeral of the number, and white space around it. -/
inductive IsSpaced (n : Int) : List Char → Prop
  | intro {front numeral back : List Char} :
      AreWhiteSpace front → IsInteger n numeral → AreWhiteSpace back →
      IsSpaced n (front ++ (numeral ++ back))

theorem isNatural_iff (n : Nat) (digits : List Char) :
    IsNatural n digits ↔
      digits ≠ [] ∧ (∀ c ∈ digits, c.isDigit = true) ∧ Nat.ofDigitChars 10 digits 0 = n := by
  constructor
  · intro h
    induction h with
    | @digit c hc =>
        refine ⟨List.cons_ne_nil c [], List.forall_mem_singleton.mpr hc, ?_⟩
        rw [Nat.ofDigitChars_cons, Nat.ofDigitChars_nil, Nat.mul_zero, Nat.zero_add]
    | @append n digits c _ hc ih =>
        obtain ⟨hne, hall, hvalue⟩ := ih
        refine ⟨List.append_ne_nil_of_left_ne_nil hne [c],
          List.forall_mem_append.mpr ⟨hall, List.forall_mem_singleton.mpr hc⟩, ?_⟩
        rw [Nat.ofDigitChars_append, hvalue, Nat.ofDigitChars_cons, Nat.ofDigitChars_nil]
  · rintro ⟨hne, hall, rfl⟩
    induction digits using List.reverseRecOn with
    | nil => exact absurd rfl hne
    | append_singleton digits c ih =>
        obtain ⟨hdigits, hlast⟩ := List.forall_mem_append.mp hall
        have hc := hlast c (List.mem_singleton_self c)
        rw [Nat.ofDigitChars_append, Nat.ofDigitChars_cons, Nat.ofDigitChars_nil]
        by_cases hfirst : digits = []
        · subst hfirst
          rw [Nat.ofDigitChars_nil, Nat.mul_zero, Nat.zero_add]
          exact .digit hc
        · exact .append (ih hfirst hdigits) hc

theorem IsNatural.isDigit_of_mem {n : Nat} {digits : List Char} (h : IsNatural n digits) {c : Char}
    (hc : c ∈ digits) : c.isDigit = true :=
  ((isNatural_iff n digits).mp h).2.1 c hc

theorem natural?_eq_some_iff (n : Nat) (digits : List Char) :
    natural? digits = some n ↔ IsNatural n digits := by
  rw [isNatural_iff, natural?]
  split
  next h =>
    rw [List.all_eq_true] at h
    constructor
    · exact fun hvalue => ⟨h.1, h.2, Option.some.inj hvalue⟩
    · exact fun hnatural => congrArg some hnatural.2.2
  next h =>
    rw [List.all_eq_true] at h
    constructor
    · intro hvalue
      cases hvalue
    · exact fun hnatural => absurd ⟨hnatural.1, hnatural.2.1⟩ h

theorem exists_of_map_natural? {digits : List Char} {f : Int → Int} {n : Int}
    (h : ((natural? digits).bind fun k => some (k : Int)).map f = some n) :
    ∃ k : Nat, natural? digits = some k ∧ f k = n := by
  obtain ⟨_, hbind, hn⟩ := Option.map_eq_some_iff.mp h
  obtain ⟨k, hk, heq⟩ := Option.bind_eq_some_iff.mp hbind
  exact ⟨k, hk, Option.some.inj heq ▸ hn⟩

theorem integer?_eq_some_iff (n : Int) (numeral : List Char) :
    integer? numeral = some n ↔ IsInteger n numeral := by
  constructor
  · intro h
    unfold integer? at h
    split at h
    next digits =>
      obtain ⟨k, hk, rfl⟩ := exists_of_map_natural? h
      exact .minus ((natural?_eq_some_iff k digits).mp hk)
    next digits =>
      obtain ⟨k, hk, rfl⟩ := exists_of_map_natural? h
      exact .plus ((natural?_eq_some_iff k digits).mp hk)
    next =>
      obtain ⟨k, hk, rfl⟩ := exists_of_map_natural? h
      exact .bare ((natural?_eq_some_iff k numeral).mp hk)
  · intro h
    cases h with
    | bare hdigits => exact integer?_of_natural? ((natural?_eq_some_iff _ _).mpr hdigits)
    | plus hdigits =>
        rw [integer?, (natural?_eq_some_iff _ _).mpr hdigits]
        rfl
    | minus hdigits =>
        rw [integer?, (natural?_eq_some_iff _ _).mpr hdigits]
        rfl

theorem IsInteger.unique {n m : Int} {numeral : List Char} (hn : IsInteger n numeral)
    (hm : IsInteger m numeral) : n = m := by
  rw [← integer?_eq_some_iff] at hn hm
  exact Option.some.inj (hn.symm.trans hm)

theorem IsInteger.isDigit_or_sign_of_mem {n : Int} {numeral : List Char} (h : IsInteger n numeral)
    {c : Char} (hc : c ∈ numeral) : c.isDigit = true ∨ c = '+' ∨ c = '-' := by
  cases h with
  | bare hdigits => exact .inl (hdigits.isDigit_of_mem hc)
  | plus hdigits =>
      rcases List.mem_cons.mp hc with rfl | hc
      · exact .inr (.inl rfl)
      · exact .inl (hdigits.isDigit_of_mem hc)
  | minus hdigits =>
      rcases List.mem_cons.mp hc with rfl | hc
      · exact .inr (.inr rfl)
      · exact .inl (hdigits.isDigit_of_mem hc)

theorem IsInteger.isGraphic_of_mem {n : Int} {numeral : List Char} (h : IsInteger n numeral)
    {c : Char} (hc : c ∈ numeral) : isGraphic c = true := by
  rcases h.isDigit_or_sign_of_mem hc with hdigit | rfl | rfl
  · exact isGraphic_of_isDigit hdigit
  · decide
  · decide

theorem isSpaced_iff (n : Int) (text : List Char) : IsSpaced n text ↔ IsInteger n (trim text) := by
  constructor
  · rintro ⟨hfront, hnumeral, hback⟩
    rw [trim_append_front hfront, trim_append_back hback,
      trim_eq_self fun c hc => hnumeral.isGraphic_of_mem hc]
    exact hnumeral
  · intro h
    obtain ⟨front, back, hfront, hback, htext⟩ := exists_trim text
    rw [htext]
    exact .intro hfront h hback

theorem IsSpaced.unique {n m : Int} {text : List Char} (hn : IsSpaced n text)
    (hm : IsSpaced m text) : n = m :=
  ((isSpaced_iff n text).mp hn).unique ((isSpaced_iff m text).mp hm)

end Decimal

theorem int32?_eq_some_iff (n : Int) (word : Int32) : int32? n = some word ↔ word.toInt = n := by
  constructor
  · intro h
    unfold int32? at h
    split at h
    next hrange =>
      obtain rfl := Option.some.inj h
      exact Int32.toInt_ofInt_of_le hrange.1 hrange.2
    next => cases h
  · rintro rfl
    exact int32?_toInt word

theorem uint32?_eq_some_iff (n : Int) (word : UInt32) :
    uint32? n = some word ↔ (word.toNat : Int) = n := by
  constructor
  · intro h
    unfold uint32? at h
    split at h
    next hrange =>
      obtain rfl := Option.some.inj h
      have hsize : n.toNat < UInt32.size := by
        have hvalue : UInt32.size = 0x100000000 := rfl
        omega
      rw [UInt32.toNat_ofNat_of_lt' hsize]
      omega
    next => cases h
  · rintro rfl
    exact uint32?_toNat word

theorem octet?_eq_some_iff (n : Int) (octet : UInt8) :
    octet? n = some octet ↔ (octet.toNat : Int) = n := by
  constructor
  · intro h
    unfold octet? at h
    split at h
    next hrange =>
      obtain rfl := Option.some.inj h
      have hsize : n.toNat < UInt8.size := by
        have hvalue : UInt8.size = 256 := rfl
        omega
      rw [UInt8.toNat_ofNat_of_lt' hsize]
      omega
    next => cases h
  · rintro rfl
    exact octet?_toNat octet

namespace Decimal

theorem int32?_trim_eq_some_iff (text : List Char) (n : Int32) :
    int32? (trim text) = some n ↔ IsSpaced n.toInt text := by
  rw [isSpaced_iff, ← integer?_eq_some_iff, int32?, Option.bind_eq_some_iff]
  constructor
  · rintro ⟨k, hk, hword⟩
    rw [hk, (int32?_eq_some_iff k n).mp hword]
  · intro h
    exact ⟨n.toInt, h, int32?_toInt n⟩

/-- No word is made of a number that is too great or too small for it. -/
theorem int32?_trim_eq_none_iff (text : List Char) :
    int32? (trim text) = none ↔
      ∀ n : Int, IsSpaced n text → ¬ (-0x80000000 ≤ n ∧ n ≤ 0x7fffffff) := by
  rw [Option.eq_none_iff_forall_not_mem]
  constructor
  · intro h n hn hrange
    apply h (Int32.ofInt n)
    rw [Option.mem_def, int32?_trim_eq_some_iff, Int32.toInt_ofInt_of_le (by omega) (by omega)]
    exact hn
  · intro h n hn
    have hlow := n.le_toInt
    have hhigh := n.toInt_lt
    exact h n.toInt ((int32?_trim_eq_some_iff text n).mp hn) ⟨by omega, by omega⟩

end Decimal

end PanelRelay
