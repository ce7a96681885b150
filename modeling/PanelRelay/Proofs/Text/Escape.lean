import PanelRelay.Text.Escape

/-!
Escaped texts. What a character is escaped to is said here form by form, apart from how it is
computed. The escapes are printable ASCII, there is one for each character, and none of them begins
another, so that an escaped text tells the text it was made from.
-/

namespace PanelRelay

def isPrintable (c : Char) : Bool :=
  ' ' ≤ c && c ≤ '~'

/-- Hexadecimal digits in the order of their values. -/
def hexDigits : List Char :=
  "0123456789abcdef".toList

def IsHexDigit (n : Nat) (c : Char) : Prop :=
  hexDigits[n]? = some c

/-- Digits for a number, where a zero leads only as the one digit there is. -/
inductive IsHexNumeral : Nat → List Char → Prop
  | digit {n : Nat} {c : Char} : IsHexDigit n c → IsHexNumeral n [c]
  | more {n low : Nat} {digits : List Char} {c : Char} :
      IsHexNumeral n digits → 0 < n → IsHexDigit low c → IsHexNumeral (n * 16 + low) (digits ++ [c])

/-- The sign that stands behind a backslash for a character with a short escape. -/
inductive IsSignOf : Char → Char → Prop
  | tab : IsSignOf '\t' 't'
  | carriageReturn : IsSignOf '\r' 'r'
  | lineFeed : IsSignOf '\n' 'n'
  | quote : IsSignOf '\'' '\''
  | doubleQuote : IsSignOf '"' '"'
  | backslash : IsSignOf '\\' '\\'

inductive IsEscapeOf : Char → List Char → Prop
  | short {c sign : Char} : IsSignOf c sign → IsEscapeOf c ['\\', sign]
  | plain {c : Char} : isPrintable c = true → (∀ sign, ¬ IsSignOf c sign) → IsEscapeOf c [c]
  | codePoint {c : Char} {digits : List Char} :
      isPrintable c = false → (∀ sign, ¬ IsSignOf c sign) → IsHexNumeral c.toNat digits →
      IsEscapeOf c ('\\' :: 'u' :: '{' :: digits ++ ['}'])

/-- The escapes of some characters, one behind the other. -/
inductive AreEscapesOf : List Char → List Char → Prop
  | nil : AreEscapesOf [] []
  | cons {c : Char} {text front rest : List Char} :
      IsEscapeOf c front → AreEscapesOf text rest → AreEscapesOf (c :: text) (front ++ rest)

def IsEscapedFrom (text escaped : String) : Prop :=
  AreEscapesOf text.toList escaped.toList

theorem getElem?_hexDigits : ∀ n < 16, hexDigits[n]? = some (Nat.digitChar n) := by
  decide +kernel

theorem isHexDigit_digitChar {n : Nat} (hn : n < 16) : IsHexDigit n (Nat.digitChar n) :=
  getElem?_hexDigits n hn

namespace IsHexDigit

variable {n : Nat} {c : Char}

theorem lt (h : IsHexDigit n c) : n < 16 :=
  (List.getElem?_eq_some_iff.mp h).1

theorem mem (h : IsHexDigit n c) : c ∈ hexDigits :=
  List.mem_of_getElem? h

theorem isPrintable_eq (h : IsHexDigit n c) : isPrintable c = true := by
  have hall : hexDigits.all isPrintable = true := by decide +kernel
  exact List.all_eq_true.mp hall c h.mem

theorem ne_brace (h : IsHexDigit n c) : c ≠ '}' := by
  have hbrace : '}' ∉ hexDigits := by decide +kernel
  exact fun heq => hbrace (heq ▸ h.mem)

theorem unique {m : Nat} (h : IsHexDigit n c) (hother : IsHexDigit m c) : n = m := by
  have hnodup : hexDigits.Nodup := by decide +kernel
  exact (List.getElem?_inj (List.getElem?_eq_some_iff.mp h).1 hnodup).mp (h.trans hother.symm)

/-- Digits of one value are one character. -/
theorem eq_digitChar (h : IsHexDigit n c) : c = Nat.digitChar n :=
  Option.some.inj (h.symm.trans (isHexDigit_digitChar h.lt))

end IsHexDigit

theorem isHexNumeral_toDigits (n : Nat) : IsHexNumeral n (Nat.toDigits 16 n) := by
  induction n using Nat.strongRecOn with
  | ind n ih =>
      by_cases hsmall : n < 16
      · rw [Nat.toDigits_of_lt_base hsmall]
        exact .digit (isHexDigit_digitChar hsmall)
      · have hpos : 0 < n / 16 := by omega
        have hlast := isHexDigit_digitChar (n.mod_lt (show 16 > 0 by omega))
        have hmore := (ih (n / 16) (by omega)).more hpos hlast
        rw [Nat.toDigits_of_base_le (by omega) (by omega)]
        rwa [Nat.div_add_mod' n 16] at hmore

namespace IsHexNumeral

variable {n : Nat} {digits : List Char}

theorem exists_isHexDigit (h : IsHexNumeral n digits) :
    ∀ c ∈ digits, ∃ low, IsHexDigit low c := by
  induction h with
  | digit hdigit => simpa using ⟨_, hdigit⟩
  | more _ _ hlow ih =>
      intro c hc
      rcases List.mem_append.mp hc with hfront | hlast
      · exact ih c hfront
      · exact List.mem_singleton.mp hlast ▸ ⟨_, hlow⟩

theorem brace_not_mem (h : IsHexNumeral n digits) : '}' ∉ digits := by
  intro hmem
  obtain ⟨low, hlow⟩ := h.exists_isHexDigit _ hmem
  exact hlow.ne_brace rfl

theorem eq_toDigits (h : IsHexNumeral n digits) : digits = Nat.toDigits 16 n := by
  induction h with
  | digit hdigit => rw [Nat.toDigits_of_lt_base hdigit.lt, hdigit.eq_digitChar]
  | @more n low digits c _ hpos hlow ih =>
      have hlt := hlow.lt
      have hfront : (n * 16 + low) / 16 = n := by omega
      have hlast : (n * 16 + low) % 16 = low := by omega
      rw [Nat.toDigits_of_base_le (by omega) (by omega), hfront, hlast, ih, hlow.eq_digitChar]

theorem ne_nil (h : IsHexNumeral n digits) : digits ≠ [] := by
  cases h with
  | digit => exact List.cons_ne_nil _ _
  | more => exact List.append_ne_nil_of_right_ne_nil _ (List.cons_ne_nil _ _)

/-- Two numbers do not share their digits. -/
theorem inj {m : Nat} {others : List Char} (h : IsHexNumeral n digits)
    (hother : IsHexNumeral m others) (heq : digits = others) : n = m := by
  induction h generalizing m others with
  | digit hdigit =>
      cases hother with
      | digit hdigit' => exact hdigit.unique ((List.cons.inj heq).1 ▸ hdigit')
      | more hfront' =>
          obtain ⟨hnil, -⟩ | ⟨-, hlast⟩ := List.append_eq_singleton_iff.mp heq.symm
          · exact absurd hnil hfront'.ne_nil
          · cases hlast
  | more hfront _ hlow ih =>
      cases hother with
      | digit =>
          obtain ⟨hnil, -⟩ | ⟨-, hlast⟩ := List.append_eq_singleton_iff.mp heq
          · exact absurd hnil hfront.ne_nil
          · cases hlast
      | more hfront' _ hlow' =>
          obtain ⟨hdigits, hlast⟩ := List.append_inj' heq rfl
          rw [ih hfront' hdigits, hlow.unique ((List.cons.inj hlast).1 ▸ hlow')]

end IsHexNumeral

namespace IsSignOf

variable {c d sign : Char}

theorem inj (h : IsSignOf c sign) (hother : IsSignOf d sign) : c = d := by
  cases h <;> cases hother <;> rfl

theorem eq_escapeChar (h : IsSignOf c sign) : escapeChar c = ['\\', sign] := by
  cases h <;> rfl

theorem isPrintable_eq (h : IsSignOf c sign) : isPrintable sign = true := by
  cases h <;> decide

theorem ne_u (h : IsSignOf c sign) : sign ≠ 'u' := by
  cases h <;> decide

theorem ne_backslash (h : ∀ sign, ¬ IsSignOf c sign) : c ≠ '\\' := by
  rintro rfl
  exact h _ .backslash

end IsSignOf

/-- Behind the short escapes the computation only asks whether a character is printable. -/
theorem escapeChar_of_forall_not {c : Char} (hsign : ∀ sign, ¬ IsSignOf c sign) :
    escapeChar c = if isPrintable c then [c] else codePointEscape c := by
  unfold escapeChar
  split
  · exact absurd .tab (hsign _)
  · exact absurd .carriageReturn (hsign _)
  · exact absurd .lineFeed (hsign _)
  · exact absurd .quote (hsign _)
  · exact absurd .doubleQuote (hsign _)
  · exact absurd .backslash (hsign _)
  · simp only [isPrintable, Bool.and_eq_true, decide_eq_true_eq]

theorem isEscapeOf_escapeChar (c : Char) : IsEscapeOf c (escapeChar c) := by
  by_cases hsign : ∃ sign, IsSignOf c sign
  · obtain ⟨sign, hsign⟩ := hsign
    exact hsign.eq_escapeChar ▸ .short hsign
  · have hnone := not_exists.mp hsign
    rw [escapeChar_of_forall_not hnone]
    cases hprintable : isPrintable c with
    | true => exact .plain hprintable hnone
    | false => exact .codePoint hprintable hnone (isHexNumeral_toDigits c.toNat)

/-- Two texts agree up to the first mark, and behind it. -/
theorem append_mark_inj_of_not_mem {mark : Char} {front back front' back' : List Char}
    (hfront : mark ∉ front) (hfront' : mark ∉ front')
    (h : front ++ mark :: back = front' ++ mark :: back') : front = front' ∧ back = back' := by
  induction front generalizing front' with
  | nil =>
      cases front' with
      | nil => exact ⟨rfl, (List.cons.inj h).2⟩
      | cons c front' => exact absurd ((List.cons.inj h).1 ▸ List.mem_cons_self) hfront'
  | cons c front ih =>
      cases front' with
      | nil => exact absurd ((List.cons.inj h).1 ▸ List.mem_cons_self) hfront
      | cons d front' =>
          obtain ⟨rfl, hrest⟩ := List.cons.inj h
          obtain ⟨rfl, rfl⟩ := ih (fun hmem => hfront (List.mem_cons_of_mem _ hmem))
            (fun hmem => hfront' (List.mem_cons_of_mem _ hmem)) hrest
          exact ⟨rfl, rfl⟩

namespace IsEscapeOf

variable {c d : Char} {escaped front rest others : List Char}

/-- A character has one escape, the computed one. -/
theorem eq_escapeChar (h : IsEscapeOf c escaped) : escaped = escapeChar c := by
  cases h with
  | short hsign => exact hsign.eq_escapeChar.symm
  | plain hprintable hsign => rw [escapeChar_of_forall_not hsign, if_pos hprintable]
  | codePoint hprintable hsign hdigits =>
      rw [escapeChar_of_forall_not hsign, if_neg (by simp [hprintable]), codePointEscape,
        hdigits.eq_toDigits]
      rfl

theorem isPrintable_of_mem (h : IsEscapeOf c escaped) : ∀ d ∈ escaped, isPrintable d = true := by
  cases h with
  | short hsign => exact List.forall_mem_cons.mpr ⟨by decide, by simpa using hsign.isPrintable_eq⟩
  | plain hprintable => simpa using hprintable
  | codePoint _ _ hdigits =>
      intro d hd
      rcases List.mem_append.mp hd with hfront | hbrace
      · simp only [List.mem_cons] at hfront
        rcases hfront with rfl | rfl | rfl | hdigit
        · decide
        · decide
        · decide
        · obtain ⟨low, hlow⟩ := hdigits.exists_isHexDigit d hdigit
          exact hlow.isPrintable_eq
      · rw [List.mem_singleton.mp hbrace]
        decide

theorem ne_nil (h : IsEscapeOf c escaped) : escaped ≠ [] := by
  cases h <;> simp

/-- No escape begins another one, and each stands for one character. -/
theorem append_inj (h : IsEscapeOf c escaped) (hother : IsEscapeOf d front)
    (heq : escaped ++ rest = front ++ others) : c = d ∧ rest = others := by
  cases h with
  | short hsign =>
      cases hother with
      | short hsign' =>
          obtain ⟨rfl, rfl⟩ := List.cons.inj (List.cons.inj heq).2
          exact ⟨hsign.inj hsign', rfl⟩
      | plain _ hnone => exact absurd (List.cons.inj heq).1.symm (IsSignOf.ne_backslash hnone)
      | codePoint => exact absurd (List.cons.inj (List.cons.inj heq).2).1 hsign.ne_u
  | plain _ hnone =>
      cases hother with
      | short => exact absurd (List.cons.inj heq).1 (IsSignOf.ne_backslash hnone)
      | plain => exact List.cons.inj heq
      | codePoint => exact absurd (List.cons.inj heq).1 (IsSignOf.ne_backslash hnone)
  | codePoint _ _ hdigits =>
      cases hother with
      | short hsign' => exact absurd (List.cons.inj (List.cons.inj heq).2).1.symm hsign'.ne_u
      | plain _ hnone => exact absurd (List.cons.inj heq).1.symm (IsSignOf.ne_backslash hnone)
      | codePoint _ _ hdigits' =>
          simp only [List.append_assoc, List.cons_append, List.nil_append, List.cons.injEq,
            true_and] at heq
          obtain ⟨hfront, hrest⟩ :=
            append_mark_inj_of_not_mem hdigits.brace_not_mem hdigits'.brace_not_mem heq
          exact ⟨Char.toNat_inj.mp (hdigits.inj hdigits' hfront), hrest⟩

end IsEscapeOf

namespace AreEscapesOf

variable {text other escaped : List Char}

theorem eq_flatMap (h : AreEscapesOf text escaped) : escaped = text.flatMap escapeChar := by
  induction h with
  | nil => rfl
  | cons hfront _ ih => rw [List.flatMap_cons, hfront.eq_escapeChar, ih]

theorem isPrintable_of_mem (h : AreEscapesOf text escaped) :
    ∀ c ∈ escaped, isPrintable c = true := by
  induction h with
  | nil => exact List.forall_mem_nil _
  | cons hfront _ ih =>
      exact List.forall_mem_append.mpr ⟨hfront.isPrintable_of_mem, ih⟩

theorem inj {same : List Char} (h : AreEscapesOf text escaped) (hother : AreEscapesOf other same)
    (heq : escaped = same) : text = other := by
  induction h generalizing other same with
  | nil =>
      cases hother with
      | nil => rfl
      | cons hfront => exact absurd (List.append_eq_nil_iff.mp heq.symm).1 hfront.ne_nil
  | cons hfront _ ih =>
      cases hother with
      | nil => exact absurd (List.append_eq_nil_iff.mp heq).1 hfront.ne_nil
      | cons hfront' hrest' =>
          obtain ⟨rfl, hrest⟩ := hfront.append_inj hfront' heq
          rw [ih hrest' hrest]

end AreEscapesOf

theorem areEscapesOf_flatMap (text : List Char) : AreEscapesOf text (text.flatMap escapeChar) := by
  induction text with
  | nil => exact .nil
  | cons c text ih => exact .cons (isEscapeOf_escapeChar c) ih

/-- Every text has one escaped form. -/
theorem isEscapedFrom_iff {text escaped : String} :
    IsEscapedFrom text escaped ↔ escaped = escape text := by
  constructor
  · intro h
    apply String.toList_inj.mp
    rw [h.eq_flatMap, escape, String.toList_ofList]
  · rintro rfl
    rw [IsEscapedFrom, escape, String.toList_ofList]
    exact areEscapesOf_flatMap text.toList

theorem IsEscapedFrom.isPrintable_of_mem {text escaped : String} (h : IsEscapedFrom text escaped) :
    ∀ c ∈ escaped.toList, isPrintable c = true :=
  AreEscapesOf.isPrintable_of_mem h

/-- The escaped form tells the text. -/
theorem IsEscapedFrom.inj {text other escaped : String} (h : IsEscapedFrom text escaped)
    (hother : IsEscapedFrom other escaped) : text = other :=
  String.toList_inj.mp (AreEscapesOf.inj h hother rfl)

end PanelRelay
