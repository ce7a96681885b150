import PanelRelay.Json.Token
import PanelRelay.Text.Blank
import PanelRelay.Text.Radix

/-! Cutting a text into JSON tokens. Blanks between tokens are dropped, and nothing else. -/

namespace PanelRelay.Json

def hexUnit? (a b c d : Char) : Option Nat := do
  return (((← hexDigit? a) * 16 + (← hexDigit? b)) * 16 + (← hexDigit? c)) * 16 + (← hexDigit? d)

def Piece.ofUnit (unit : Nat) : Piece :=
  if Utf16.isHighSurrogate unit || Utf16.isLowSurrogate unit then .surrogate unit
  else .char (Char.ofNat unit)

def shortEscape? : Char → Option Char
  | '"' => some '"'
  | '\\' => some '\\'
  | '/' => some '/'
  | 'b' => some '\x08'
  | 'f' => some '\x0c'
  | 'n' => some '\n'
  | 'r' => some '\r'
  | 't' => some '\t'
  | _ => none

def stringBody : List Char → Option (List Piece × List Char)
  | [] => none
  | '"' :: rest => some ([], rest)
  | '\\' :: 'u' :: a :: b :: c :: d :: rest => do
      let unit ← hexUnit? a b c d
      let (content, rest) ← stringBody rest
      return (.ofUnit unit :: content, rest)
  | '\\' :: escape :: rest => do
      let c ← shortEscape? escape
      let (content, rest) ← stringBody rest
      return (.char c :: content, rest)
  | c :: rest =>
      if c < ' ' then none
      else do
        let (content, rest) ← stringBody rest
        return (.char c :: content, rest)

/-- Turns each high surrogate that a low one follows into the character they denote. -/
def joinSurrogates : List Piece → List Piece
  | .surrogate high :: .surrogate low :: rest =>
      if Utf16.isHighSurrogate high && Utf16.isLowSurrogate low then
        .char (Utf16.join high low) :: joinSurrogates rest
      else .surrogate high :: joinSurrogates (.surrogate low :: rest)
  | piece :: rest => piece :: joinSurrogates rest
  | [] => []

def takeDigits (text : List Char) : List Char × List Char :=
  (text.takeWhile Char.isDigit, text.dropWhile Char.isDigit)

def wholePart? : List Char → Option (List Char × List Char)
  | '0' :: rest => some (['0'], rest)
  | text =>
      let taken := takeDigits text
      if taken.1 = [] then none else some taken

def fraction? : List Char → Option (Option (List Char) × List Char)
  | '.' :: text =>
      let taken := takeDigits text
      if taken.1 = [] then none else some (some taken.1, taken.2)
  | text => some (none, text)

def exponentDigits? (negative : Bool) (text : List Char) :
    Option (Option (Bool × List Char) × List Char) :=
  let taken := takeDigits text
  if taken.1 = [] then none else some (some (negative, taken.1), taken.2)

def exponent? : List Char → Option (Option (Bool × List Char) × List Char)
  | c :: text =>
      if c = 'e' ∨ c = 'E' then
        match text with
        | '-' :: text => exponentDigits? true text
        | '+' :: text => exponentDigits? false text
        | text => exponentDigits? false text
      else some (none, c :: text)
  | [] => some (none, [])

def magnitude? (negative : Bool) (text : List Char) : Option (Number × List Char) := do
  let (whole, text) ← wholePart? text
  let (fraction, text) ← fraction? text
  let (exponent, text) ← exponent? text
  return ({ negative, whole, fraction, exponent }, text)

def number? : List Char → Option (Number × List Char)
  | '-' :: text => magnitude? true text
  | text => magnitude? false text

def token? : List Char → Option (Token × List Char)
  | '{' :: rest => some (.beginObject, rest)
  | '}' :: rest => some (.endObject, rest)
  | '[' :: rest => some (.beginArray, rest)
  | ']' :: rest => some (.endArray, rest)
  | ':' :: rest => some (.colon, rest)
  | ',' :: rest => some (.comma, rest)
  | 'n' :: 'u' :: 'l' :: 'l' :: rest => some (.null, rest)
  | 't' :: 'r' :: 'u' :: 'e' :: rest => some (.bool true, rest)
  | 'f' :: 'a' :: 'l' :: 's' :: 'e' :: rest => some (.bool false, rest)
  | '"' :: rest => do
      let (content, rest) ← stringBody rest
      return (.string (joinSurrogates content), rest)
  | text => do
      let (number, rest) ← number? text
      return (.number number, rest)

theorem length_stringBody {text rest : List Char} {content : List Piece}
    (h : stringBody text = some (content, rest)) : rest.length < text.length := by
  fun_induction stringBody text generalizing content rest with
  | case1 => simp at h
  | case2 => simp at h; simp [h]
  | case3 a b c d text ih =>
      simp only [Option.bind_eq_bind, Option.bind_eq_some_iff] at h
      obtain ⟨_, _, ⟨inner, remaining⟩, hinner, heq⟩ := h
      cases heq
      have := ih hinner
      simp; omega
  | case4 escape text _ ih =>
      simp only [Option.bind_eq_bind, Option.bind_eq_some_iff] at h
      obtain ⟨_, _, ⟨inner, remaining⟩, hinner, heq⟩ := h
      cases heq
      have := ih hinner
      simp; omega
  | case5 => simp at h
  | case6 c text _ _ _ _ ih =>
      simp only [Option.bind_eq_bind, Option.bind_eq_some_iff] at h
      obtain ⟨⟨inner, remaining⟩, hinner, heq⟩ := h
      cases heq
      have := ih hinner
      simp; omega

theorem length_takeDigits (text : List Char) :
    (takeDigits text).1.length + (takeDigits text).2.length = text.length := by
  rw [← List.length_append, takeDigits, List.takeWhile_append_dropWhile]

theorem length_wholePart? {text digits rest : List Char}
    (h : wholePart? text = some (digits, rest)) : rest.length < text.length := by
  unfold wholePart? at h
  split at h
  · cases h; simp
  · have hlength := length_takeDigits text
    by_cases hne : (takeDigits text).1 = []
    · simp [hne] at h
    · simp only [if_neg hne, Option.some.injEq] at h
      have hpos := List.length_pos_iff.mpr hne
      simp only [h] at hlength hpos
      omega

theorem length_fraction? {text rest : List Char} {digits : Option (List Char)}
    (h : fraction? text = some (digits, rest)) : rest.length ≤ text.length := by
  unfold fraction? at h
  split at h
  · next text =>
      have hlength := length_takeDigits text
      by_cases hne : (takeDigits text).1 = []
      · simp [hne] at h
      · simp only [if_neg hne, Option.some.injEq, Prod.mk.injEq] at h
        simp only [h.2, List.length_cons] at hlength ⊢
        omega
  · cases h; simp

theorem length_exponentDigits? {negative : Bool} {text rest : List Char}
    {exponent : Option (Bool × List Char)}
    (h : exponentDigits? negative text = some (exponent, rest)) : rest.length ≤ text.length := by
  have hlength := length_takeDigits text
  by_cases hne : (takeDigits text).1 = []
  · simp [exponentDigits?, hne] at h
  · simp only [exponentDigits?, if_neg hne, Option.some.injEq, Prod.mk.injEq] at h
    simp only [h.2] at hlength
    omega

theorem length_exponent? {text rest : List Char} {exponent : Option (Bool × List Char)}
    (h : exponent? text = some (exponent, rest)) : rest.length ≤ text.length := by
  unfold exponent? at h
  split at h
  · split at h
    · split at h
      all_goals
        have := length_exponentDigits? h
        simp only [List.length_cons] at this ⊢
        omega
    · cases h; simp
  · cases h; simp

theorem length_magnitude? {negative : Bool} {text rest : List Char} {number : Number}
    (h : magnitude? negative text = some (number, rest)) : rest.length < text.length := by
  simp only [magnitude?, Option.bind_eq_bind, Option.bind_eq_some_iff] at h
  obtain ⟨⟨_, first⟩, hwhole, ⟨_, second⟩, hfraction, ⟨_, third⟩, hexponent, heq⟩ := h
  cases heq
  have hfirst := length_wholePart? hwhole
  have hsecond := length_fraction? hfraction
  have hthird := length_exponent? hexponent
  exact Nat.lt_of_le_of_lt (Nat.le_trans hthird hsecond) hfirst

theorem length_number? {text rest : List Char} {number : Number}
    (h : number? text = some (number, rest)) : rest.length < text.length := by
  unfold number? at h
  split at h
  · have := length_magnitude? h
    simp; omega
  · exact length_magnitude? h

theorem length_token? {text rest : List Char} {token : Token}
    (h : token? text = some (token, rest)) : rest.length < text.length := by
  unfold token? at h
  split at h
  case h_10 =>
    simp only [Option.bind_eq_bind, Option.bind_eq_some_iff] at h
    obtain ⟨⟨content, remaining⟩, hcontent, heq⟩ := h
    cases heq
    have := length_stringBody hcontent
    simp; omega
  case h_11 =>
    simp only [Option.bind_eq_bind, Option.bind_eq_some_iff] at h
    obtain ⟨⟨number, remaining⟩, hnumber, heq⟩ := h
    cases heq
    exact length_number? hnumber
  all_goals
    cases h
    simp <;> omega

def tokens? : List Char → Option (List Token)
  | [] => some []
  | c :: rest =>
      if isBlank c then tokens? rest
      else
        match h : token? (c :: rest) with
        | none => none
        | some (token, rest') =>
            have := length_token? h
            (tokens? rest').map (token :: ·)
termination_by text => text.length
decreasing_by all_goals simp only [List.length_cons] at *; omega

end PanelRelay.Json
