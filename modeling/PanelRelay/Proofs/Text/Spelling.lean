import PanelRelay.Base64
import PanelRelay.Text.Blank
import PanelRelay.Text.Decimal

/-!
Integers and octets as text. Both are spelled in visible ASCII without blanks, and their spellings
are read back.
-/

namespace PanelRelay

def isGraphic (c : Char) : Bool :=
  '!' ≤ c && c ≤ '~'

theorem toNat_of_isGraphic {c : Char} (h : isGraphic c = true) :
    0x21 ≤ c.toNat ∧ c.toNat ≤ 0x7e := by
  simp only [isGraphic, Bool.and_eq_true, decide_eq_true_eq] at h
  exact h

theorem isWhiteSpace_of_isGraphic {c : Char} (h : isGraphic c = true) :
    isWhiteSpace c = false := by
  have hrange := toNat_of_isGraphic h
  simp only [isWhiteSpace, Bool.or_eq_false_iff, Bool.and_eq_false_iff, decide_eq_false_iff_not]
  omega

theorem trim_eq_self {text : List Char} (h : ∀ c ∈ text, isGraphic c = true) :
    trim text = text := by
  have hstart : ∀ {text : List Char}, (∀ c ∈ text, isGraphic c = true) →
      text.dropWhile isWhiteSpace = text := by
    intro text h
    cases text with
    | nil => rfl
    | cons c text => simp [isWhiteSpace_of_isGraphic (h c (by simp))]
  have hreversed : ∀ c ∈ text.reverse, isGraphic c = true := by simpa using h
  rw [trim, hstart h, dropEndWhile, hstart hreversed, List.reverse_reverse]

namespace Decimal

theorem isDigit_of_mem_ofNat {n : Nat} {c : Char} (hc : c ∈ ofNat n) : c.isDigit = true :=
  Nat.isDigit_of_mem_toDigits (by omega) (by omega) hc

/-- A digit stands as far behind the zero as its value says. -/
theorem toNat_digit {c : Char} (hc : c.isDigit = true) :
    ∃ n < 10, c.toNat - '0'.toNat = n ∧ c.toNat = 48 + n := by
  simp only [Char.isDigit, Bool.and_eq_true, decide_eq_true_eq] at hc
  have hlow : 48 ≤ c.toNat := hc.1
  have hhigh : c.toNat ≤ 57 := hc.2
  exact ⟨c.toNat - 48, by omega, rfl, by omega⟩

theorem isGraphic_of_isDigit {c : Char} (h : c.isDigit = true) : isGraphic c = true := by
  obtain ⟨n, hn, -, hc⟩ := toNat_digit h
  have hgoal : 0x21 ≤ c.toNat ∧ c.toNat ≤ 0x7e := by omega
  simp only [isGraphic, Bool.and_eq_true, decide_eq_true_eq]
  exact hgoal

theorem isGraphic_of_mem_ofInt {n : Int} {c : Char} (hc : c ∈ ofInt n) : isGraphic c = true := by
  have hdigits : ∀ n, c ∈ ofNat n → isGraphic c = true := fun n hc =>
    isGraphic_of_isDigit (isDigit_of_mem_ofNat hc)
  unfold ofInt at hc
  split at hc
  · rcases List.mem_cons.mp hc with rfl | hc
    · decide
    · exact hdigits _ hc
  · exact hdigits _ hc

/-- Digits alone are a numeral without a sign. -/
theorem integer?_of_natural? {digits : List Char} {n : Nat} (h : natural? digits = some n) :
    integer? digits = some (n : Int) := by
  cases digits with
  | nil => simp [natural?] at h
  | cons c digits =>
      have hdigit : c.isDigit = true :=
        Decidable.byContradiction fun hnot => by simp [natural?, hnot] at h
      have hminus : c ≠ '-' := by
        rintro rfl
        exact absurd hdigit (by decide)
      have hplus : c ≠ '+' := by
        rintro rfl
        exact absurd hdigit (by decide)
      unfold integer?
      split
      next heq => exact absurd (List.cons.inj heq).1 hminus
      next heq => exact absurd (List.cons.inj heq).1 hplus
      next => rw [h]; rfl

theorem integer?_ofInt (n : Int) : integer? (ofInt n) = some n := by
  unfold ofInt
  split
  next hnegative =>
    simp only [integer?, natural?_ofNat]
    change some (-(n.natAbs : Int)) = some n
    rw [Option.some.injEq]
    omega
  next hnatural =>
    rw [integer?_of_natural? (natural?_ofNat _), Option.some.injEq]
    omega

theorem int32?_ofInt (n : Int32) : int32? (ofInt n.toInt) = some n := by
  rw [int32?, integer?_ofInt, Option.bind_some, int32?_toInt]

end Decimal

namespace Base64

theorem bits?_symbol : ∀ bits < 64, bits? (symbol bits) = some bits := by
  decide

theorem symbol_ne_padding : ∀ bits < 64, symbol bits ≠ '=' := by
  decide

theorem isGraphic_symbol : ∀ bits < 64, isGraphic (symbol bits) = true := by
  decide

theorem isGraphic_of_mem_encode {octets : List UInt8} {c : Char} (hc : c ∈ encode octets) :
    isGraphic c = true := by
  have hpadding : isGraphic '=' = true := by decide
  induction octets using encode.induct with
  | case1 => cases hc
  | case2 a =>
      have ha := a.toNat_lt
      simp only [encode, List.mem_cons, List.not_mem_nil, or_false] at hc
      rcases hc with rfl | rfl | rfl | rfl
      · exact isGraphic_symbol _ (by omega)
      · exact isGraphic_symbol _ (by omega)
      · exact hpadding
      · exact hpadding
  | case3 a b =>
      have ha := a.toNat_lt
      have hb := b.toNat_lt
      simp only [encode, List.mem_cons, List.not_mem_nil, or_false] at hc
      rcases hc with rfl | rfl | rfl | rfl
      · exact isGraphic_symbol _ (by omega)
      · exact isGraphic_symbol _ (by omega)
      · exact isGraphic_symbol _ (by omega)
      · exact hpadding
  | case4 a b c octets ih =>
      have ha := a.toNat_lt
      have hb := b.toNat_lt
      have hc' := c.toNat_lt
      simp only [encode, List.mem_cons] at hc
      rcases hc with rfl | rfl | rfl | rfl | hc
      · exact isGraphic_symbol _ (by omega)
      · exact isGraphic_symbol _ (by omega)
      · exact isGraphic_symbol _ (by omega)
      · exact isGraphic_symbol _ (by omega)
      · exact ih hc

theorem decode?_cons {a b c d : Char} (hd : d ≠ '=') (text : List Char) :
    decode? (a :: b :: c :: d :: text) = (do
      let octets ← decodeGroup? a b c d
      return octets ++ (← decode? text)) := by
  cases text with
  | nil =>
      simp only [decode?, if_neg hd]
      cases decodeGroup? a b c d <;> simp
  | cons e text => simp [decode?]

theorem decodeGroup?_symbols (a b c : UInt8) :
    decodeGroup? (symbol (a.toNat / 4)) (symbol (a.toNat % 4 * 16 + b.toNat / 16))
      (symbol (b.toNat % 16 * 4 + c.toNat / 64)) (symbol (c.toNat % 64)) = some [a, b, c] := by
  have ha := a.toNat_lt
  have hb := b.toNat_lt
  have hc := c.toNat_lt
  simp only [decodeGroup?, bits?_symbol _ (show a.toNat / 4 < 64 by omega),
    bits?_symbol _ (show a.toNat % 4 * 16 + b.toNat / 16 < 64 by omega),
    bits?_symbol _ (show b.toNat % 16 * 4 + c.toNat / 64 < 64 by omega),
    bits?_symbol _ (show c.toNat % 64 < 64 by omega), Option.bind_eq_bind, Option.bind_some]
  have hfirst : a.toNat / 4 * 4 + (a.toNat % 4 * 16 + b.toNat / 16) / 16 = a.toNat := by omega
  have hsecond : (a.toNat % 4 * 16 + b.toNat / 16) % 16 * 16 +
      (b.toNat % 16 * 4 + c.toNat / 64) / 4 = b.toNat := by omega
  have hthird : (b.toNat % 16 * 4 + c.toNat / 64) % 4 * 64 + c.toNat % 64 = c.toNat := by omega
  rw [hfirst, hsecond, hthird]
  simp

theorem decode?_encode (octets : List UInt8) : decode? (encode octets) = some octets := by
  induction octets using encode.induct with
  | case1 => rfl
  | case2 a =>
      have ha := a.toNat_lt
      have hfirst := bits?_symbol (a.toNat / 4) (by omega)
      have hsecond := bits?_symbol (a.toNat % 4 * 16) (by omega)
      have hoctet : a.toNat / 4 * 4 + a.toNat % 4 * 16 / 16 = a.toNat := by omega
      simp only [encode, decode?, decodeLast?, hfirst, hsecond, if_true, Option.bind_eq_bind,
        Option.bind_some, hoctet, UInt8.ofNat_toNat]
      rw [if_pos (by omega)]
  | case3 a b =>
      have ha := a.toNat_lt
      have hb := b.toNat_lt
      have hfirst := bits?_symbol (a.toNat / 4) (by omega)
      have hsecond := bits?_symbol (a.toNat % 4 * 16 + b.toNat / 16) (by omega)
      have hthird := bits?_symbol (b.toNat % 16 * 4) (by omega)
      have hpadding := symbol_ne_padding (b.toNat % 16 * 4) (by omega)
      have hoctet : a.toNat / 4 * 4 + (a.toNat % 4 * 16 + b.toNat / 16) / 16 = a.toNat := by omega
      have hother : (a.toNat % 4 * 16 + b.toNat / 16) % 16 * 16 + b.toNat % 16 * 4 / 4 =
          b.toNat := by omega
      simp only [encode, decode?, decodeLast?, hfirst, hsecond, hthird, if_true, if_neg hpadding,
        Option.bind_eq_bind, Option.bind_some, hoctet, hother, UInt8.ofNat_toNat]
      rw [if_pos (by omega)]
  | case4 a b c octets ih =>
      have hpadding := symbol_ne_padding (c.toNat % 64) (by omega)
      rw [encode, decode?_cons hpadding, decodeGroup?_symbols, ih]
      rfl

end Base64

end PanelRelay
