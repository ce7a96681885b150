import PanelRelay.Proofs.Xml.Printing
import PanelRelay.Xml.Lexer

/-!
Tokens of text. Outside of markup a character becomes a token of its own, although slashes and closing
brackets are held back until the character behind them is known; what was held back comes out at the
next angle bracket at the latest.
-/

namespace PanelRelay.Xml

namespace Lexer

def scanAll? (lexer : Lexer) : List Char → Option (List Token × Lexer)
  | [] => some ([], lexer)
  | c :: text => do
      let (tokens, lexer) ← lexer.scan? c
      let (more, lexer) ← lexer.scanAll? text
      return (tokens ++ more, lexer)

/-- The mode that holds back characters of a text, outside of a document type declaration. -/
inductive Holds : Mode → List Char → Prop where
  | nothing : Holds .text []
  | slash : Holds .slash ['/']
  | bracket : Holds .bracket [']']
  | brackets : Holds .brackets [']', ']']

variable {mode : Mode} {held : List Char}

/-- Characters that complete no mark and hold nothing back. -/
def IsSettled (c : Char) : Prop :=
  c ≠ '<' ∧ c ≠ '>' ∧ c ≠ '/' ∧ c ≠ ']'

theorem scanAll?_cons {lexer middle last : Lexer} {c : Char} {text : List Char}
    {tokens more : List Token} (hfirst : lexer.scan? c = some (tokens, middle))
    (hrest : middle.scanAll? text = some (more, last)) :
    lexer.scanAll? (c :: text) = some (tokens ++ more, last) := by
  simp [scanAll?, hfirst, hrest]

theorem scanAll?_append {lexer middle last : Lexer} {text rest : List Char}
    {tokens more : List Token} (hfirst : lexer.scanAll? text = some (tokens, middle))
    (hrest : middle.scanAll? rest = some (more, last)) :
    lexer.scanAll? (text ++ rest) = some (tokens ++ more, last) := by
  induction text generalizing lexer tokens with
  | nil =>
      obtain ⟨rfl, rfl⟩ := Prod.mk.inj (Option.some.inj hfirst)
      exact hrest
  | cons c text ih =>
      simp only [scanAll?, Option.bind_eq_bind, Option.bind_eq_some_iff, Prod.exists] at hfirst
      obtain ⟨first, next, hscan, second, final, hall, heq⟩ := hfirst
      obtain ⟨rfl, rfl⟩ := Prod.mk.inj (Option.some.inj heq)
      rw [List.append_assoc]
      exact scanAll?_cons hscan (ih hall)

theorem Holds.scan?_settled (hheld : Holds mode held) {c : Char} (hc : IsSettled c) :
    ({ mode } : Lexer).scan? c = some ((held ++ [c]).map Token.ofChar, {}) := by
  obtain ⟨hopen, hclose, hslash, hbracket⟩ := hc
  cases hheld with
  | nothing => simp [Lexer.scan?, text, hopen, hslash, hbracket, enter]
  | slash =>
      simp [Lexer.scan?, outer, text, hopen, hclose, hslash, hbracket, enter, behind, Token.ofChar]
  | bracket => simp [Lexer.scan?, text, hopen, hslash, hbracket, enter, behind, Token.ofChar]
  | brackets =>
      simp [Lexer.scan?, text, hopen, hclose, hslash, hbracket, enter, behind, Token.ofChar]

theorem Holds.scan? (hheld : Holds mode held) {c : Char} (hopen : c ≠ '<') (hclose : c ≠ '>') :
    ∃ next done later, ({ mode } : Lexer).scan? c = some (done.map Token.ofChar, { mode := next }) ∧
      Holds next later ∧ held ++ [c] = done ++ later := by
  by_cases hslash : c = '/'
  · subst hslash
    cases hheld with
    | nothing => exact ⟨_, [], _, rfl, .slash, rfl⟩
    | slash => exact ⟨_, ['/'], _, rfl, .slash, rfl⟩
    | bracket => exact ⟨_, [']'], _, rfl, .slash, rfl⟩
    | brackets => exact ⟨_, [']', ']'], _, rfl, .slash, rfl⟩
  · by_cases hbracket : c = ']'
    · subst hbracket
      cases hheld with
      | nothing => exact ⟨_, [], _, rfl, .bracket, rfl⟩
      | slash => exact ⟨_, ['/'], _, rfl, .bracket, rfl⟩
      | bracket => exact ⟨_, [], _, rfl, .brackets, rfl⟩
      | brackets => exact ⟨_, [']'], _, rfl, .brackets, rfl⟩
    · have hsettled : IsSettled c := ⟨hopen, hclose, hslash, hbracket⟩
      exact ⟨.text, held ++ [c], [], hheld.scan?_settled hsettled, .nothing, by simp⟩

/-- What is held back comes out at an angle bracket. -/
theorem Holds.scan?_open (hheld : Holds mode held) :
    ({ mode } : Lexer).scan? '<' = some (held.map Token.ofChar, { mode := .angle }) := by
  cases hheld <;> rfl

theorem isSettled_of_isNameChar {c : Char} (hc : isNameChar c = true) : IsSettled c := by
  refine ⟨?_, ?_, ?_, ?_⟩ <;>
    · rintro rfl
      revert hc
      decide

theorem scanAll?_settled {content : List Char} (hcontent : ∀ c ∈ content, IsSettled c) :
    ({} : Lexer).scanAll? content = some (content.map Token.ofChar, {}) := by
  induction content with
  | nil => rfl
  | cons c content ih =>
      obtain ⟨hc, hcontent⟩ := List.forall_mem_cons.mp hcontent
      exact scanAll?_cons (Holds.nothing.scan?_settled hc) (ih hcontent)

theorem scanAll?_angle {c : Char} {rest : List Char} {tokens : List Token} {last : Lexer}
    (hc : isNameStart c = true) (hrest : ({} : Lexer).scanAll? (c :: rest) = some (tokens, last)) :
    ({ mode := .angle } : Lexer).scanAll? (c :: rest) = some (.tagStart :: tokens, last) := by
  have hname : isNameChar c = true := by simp [isNameChar, hc]
  obtain ⟨hopen, hclose, hslash, hbracket⟩ := isSettled_of_isNameChar hname
  have hquestion : c ≠ '?' := by
    rintro rfl
    revert hc
    decide
  have hexclamation : c ≠ '!' := by
    rintro rfl
    revert hc
    decide
  have htext : ({} : Lexer).scan? c = some ([Token.ofChar c], {}) := by
    simp [Lexer.scan?, text, hopen, hslash, hbracket, enter]
  have hangle : ({ mode := .angle } : Lexer).scan? c = some ([.tagStart, Token.ofChar c], {}) := by
    simp [Lexer.scan?, angle?, outer, text, hopen, hslash, hbracket, hquestion, hexclamation, hname,
      enter, behind]
  simp only [scanAll?, htext, Option.bind_eq_bind, Option.bind_some] at hrest
  simp only [scanAll?, hangle, Option.bind_eq_bind, Option.bind_some]
  obtain ⟨⟨more, final⟩, hmore, heq⟩ := Option.bind_eq_some_iff.mp hrest
  obtain ⟨rfl, rfl⟩ := Prod.mk.inj (Option.some.inj heq)
  rw [hmore]
  rfl

end Lexer

end PanelRelay.Xml
