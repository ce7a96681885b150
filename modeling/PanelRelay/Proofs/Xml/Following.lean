import PanelRelay.Proofs.Xml.Grammar
import PanelRelay.Proofs.Xml.Lexing

/-!
Following a reader from token to token, where no entity is opened. Which tokens a text has is up to
the lexer alone, and what the reader does with them does not depend on the lexer.
-/

namespace PanelRelay.Xml

namespace Reader

/-- Accepts a token behind which nothing is to be inserted, wherever the lexer is. -/
def Steps (reader : Reader) (token : Token) (next : Reader) : Prop :=
  ∀ lexer : Lexer, { reader with lexer }.accept? token = some ({ next with lexer }, [])

inductive Follows : Reader → List Token → Reader → Prop where
  | nil (reader : Reader) : Follows reader [] reader
  | cons {reader next last : Reader} {token : Token} {tokens : List Token}
      (hstep : reader.Steps token next) (hrest : Follows next tokens last) :
      Follows reader (token :: tokens) last

namespace Follows

variable {reader next last : Reader} {token : Token} {tokens first second : List Token}

theorem single (hstep : reader.Steps token next) : Follows reader [token] next :=
  .cons hstep (.nil next)

theorem append (hfirst : Follows reader first next) (hsecond : Follows next second last) :
    Follows reader (first ++ second) last := by
  induction hfirst with
  | nil reader => exact hsecond
  | cons hstep hrest ih => exact .cons hstep (ih hsecond)

theorem exists_append (h : Follows reader (first ++ second) last) :
    ∃ middle, Follows reader first middle ∧ Follows middle second last := by
  induction first generalizing reader with
  | nil => exact ⟨reader, .nil reader, h⟩
  | cons token first ih =>
      cases h with
      | cons hstep hrest =>
          obtain ⟨middle, hfirst, hsecond⟩ := ih hrest
          exact ⟨middle, .cons hstep hfirst, hsecond⟩

theorem withLexer (h : Follows reader tokens last) (lexer : Lexer) :
    Follows { reader with lexer } tokens { last with lexer } := by
  induction h with
  | nil reader => exact .nil _
  | @cons reader next last token tokens hstep hrest ih =>
      have hstep : { reader with lexer }.Steps token { next with lexer } := hstep
      exact .cons hstep ih

theorem acceptAll? (h : Follows reader tokens last) (lexer : Lexer) :
    { reader with lexer }.acceptAll? tokens = some ({ last with lexer }, []) := by
  induction h with
  | nil reader => rfl
  | cons hstep hrest ih => simp [Reader.acceptAll?, hstep lexer, ih]

end Follows

/-- A text is read as the tokens that it is cut into. -/
theorem readAll?_of_follows {reader next : Reader} {text : List Char} {tokens : List Token}
    {lexer : Lexer} (hscan : reader.lexer.scanAll? text = some (tokens, lexer))
    (hfollows : Follows reader tokens next) :
    reader.readAll? text = some { next with lexer } := by
  induction text generalizing reader next tokens with
  | nil =>
      obtain ⟨rfl, rfl⟩ := Prod.mk.inj (Option.some.inj hscan)
      cases hfollows
      rfl
  | cons c text ih =>
      simp only [Lexer.scanAll?, Option.bind_eq_bind, Option.bind_eq_some_iff, Prod.exists] at hscan
      obtain ⟨first, middle, hfirst, more, final, hmore, heq⟩ := hscan
      obtain ⟨rfl, rfl⟩ := Prod.mk.inj (Option.some.inj heq)
      obtain ⟨between, hbetween, hrest⟩ := hfollows.exists_append
      have hstep : reader.step? c = some ({ between with lexer := middle }, []) := by
        simp only [step?, hfirst, Option.bind_eq_bind, Option.bind_some]
        exact hbetween.acceptAll? middle
      -- The tokens of the later characters are followed behind this one, where the lexer has moved on.
      have hrest := hrest.withLexer middle
      have hread := ih hmore hrest
      rw [readAll?_cons, read?_eq_of_step? hstep, Option.bind_some, hread]

theorem follows_chars {reader : Reader} {extend : List Char → Char → Option (List Char)}
    (place : List Char → Place)
    (hplace : ∀ run c longer, extend run c = some longer →
      (reader.enter (place run)).Steps (.char c) (reader.enter (place longer)))
    {text run result : List Char} (htext : text.foldlM extend run = some result) :
    Follows (reader.enter (place run)) (text.map Token.char) (reader.enter (place result)) := by
  induction text generalizing run with
  | nil =>
      obtain rfl := Option.some.inj htext
      exact .nil _
  | cons c text ih =>
      rw [List.foldlM_cons] at htext
      obtain ⟨longer, hlonger, hrest⟩ := Option.bind_eq_some_iff.mp htext
      exact .cons (hplace run c longer hlonger) (ih hrest)

end Reader

theorem ofChar_of_isNameChar {c : Char} (hc : isNameChar c = true) : Token.ofChar c = .char c := by
  unfold Token.ofChar
  split
  all_goals first
    | rfl
    | exact absurd hc (by decide)

theorem not_isBlank_of_isNameChar {c : Char} (hc : isNameChar c = true) : isBlank c = false := by
  rw [← Bool.not_eq_true]
  intro hblank
  rcases (isBlank_iff c).mp hblank with rfl | rfl | rfl | rfl <;>
    · revert hc
      decide

theorem isNameChar_of_extendName? {name longer : List Char} {c : Char}
    (h : extendName? name c = some longer) : isNameChar c = true ∧ longer = c :: name := by
  obtain ⟨hclass, rfl⟩ : (if name = [] then isNameStart c else isNameChar c) = true ∧
      c :: name = longer := by simpa [extendName?] using h
  refine ⟨?_, rfl⟩
  split at hclass
  · simp [isNameChar, hclass]
  · exact hclass

theorem foldlM_extendName? {text : List Char} (hstart : text.head?.any isNameStart = true)
    (htext : ∀ c ∈ text, isNameChar c = true) :
    text.foldlM extendName? [] = some text.reverse := by
  have hlater : ∀ text run : List Char, (∀ c ∈ text, isNameChar c = true) → run ≠ [] →
      text.foldlM extendName? run = some (text.reverse ++ run) := by
    intro text
    induction text with
    | nil => exact fun run _ _ => rfl
    | cons c text ih =>
        intro run htext hrun
        have hextend : extendName? run c = some (c :: run) := by
          simp [extendName?, hrun, htext c (by simp)]
        rw [List.foldlM_cons, hextend, Option.bind_eq_bind, Option.bind_some,
          ih (c :: run) (fun d hd => htext d (by simp [hd])) (by simp)]
        simp
  cases text with
  | nil => cases hstart
  | cons c rest =>
      have hextend : extendName? [] c = some [c] := by simpa [extendName?] using hstart
      have hrest : ∀ d ∈ rest, isNameChar d = true := fun d hd =>
        htext d (List.mem_cons_of_mem c hd)
      rw [List.foldlM_cons, hextend, Option.bind_eq_bind, Option.bind_some,
        hlater rest [c] hrest (by simp)]
      simp

theorem Name.IsValid.foldlM_extendName? {name : Name} (hname : name.IsValid) :
    name.chars.foldlM extendName? [] = some name.chars.reverse :=
  Xml.foldlM_extendName? hname.facts.1 hname.facts.2.1

theorem Name.IsValid.map_ofChar {name : Name} (hname : name.IsValid) :
    name.chars.map Token.ofChar = name.chars.map Token.char :=
  List.map_congr_left fun _ hc => ofChar_of_isNameChar (hname.isNameChar hc)

theorem isSettled_of_isBlank {c : Char} (hc : isBlank c = true) :
    Lexer.IsSettled c ∧ Token.ofChar c = .char c := by
  rcases (isBlank_iff c).mp hc with rfl | rfl | rfl | rfl <;>
    exact ⟨⟨by decide, by decide, by decide, by decide⟩, rfl⟩

namespace Reader

theorem follows_name {reader : Reader} {name : Name} (hname : name.IsValid)
    (place : List Char → Place)
    (hplace : ∀ run c longer, extendName? run c = some longer →
      (reader.enter (place run)).Steps (.char c) (reader.enter (place longer))) :
    Follows (reader.enter (place [])) (name.chars.map Token.ofChar)
      (reader.enter (place name.chars.reverse)) := by
  rw [hname.map_ofChar]
  exact follows_chars place hplace hname.foldlM_extendName?

/-- Takes reader and lexer over a text, from one place to another. -/
def Advances (lexer : Lexer) (reader : Reader) (text : List Char) (later : Lexer) (next : Reader) :
    Prop :=
  ∃ tokens, lexer.scanAll? text = some (tokens, later) ∧ Follows reader tokens next

namespace Advances

variable {lexer middle later : Lexer} {reader between next : Reader} {text rest : List Char}

theorem refl (lexer : Lexer) (reader : Reader) : Advances lexer reader [] lexer reader :=
  ⟨[], rfl, .nil reader⟩

theorem append (hfirst : Advances lexer reader text middle between)
    (hrest : Advances middle between rest later next) :
    Advances lexer reader (text ++ rest) later next := by
  obtain ⟨tokens, hscan, hfollows⟩ := hfirst
  obtain ⟨more, hmore, hlater⟩ := hrest
  exact ⟨tokens ++ more, Lexer.scanAll?_append hscan hmore, hfollows.append hlater⟩

theorem readAll? (h : Advances reader.lexer reader text later next) :
    reader.readAll? text = some { next with lexer := later } := by
  obtain ⟨tokens, hscan, hfollows⟩ := h
  exact readAll?_of_follows hscan hfollows

theorem cons {c : Char} {tokens : List Token} (hscan : lexer.scan? c = some (tokens, middle))
    (hfollows : Follows reader tokens between) (hrest : Advances middle between text later next) :
    Advances lexer reader (c :: text) later next := by
  obtain ⟨more, hmore, hlater⟩ := hrest
  exact ⟨tokens ++ more, Lexer.scanAll?_cons hscan hmore, hfollows.append hlater⟩

end Advances

theorem advances_char {c : Char} (hc : Lexer.IsSettled c) {reader next : Reader}
    (hstep : reader.Steps (Token.ofChar c) next) : Advances {} reader [c] {} next :=
  .cons (Lexer.Holds.nothing.scan?_settled hc) (.single hstep) (.refl _ _)

theorem advances_settled {text : List Char} {reader next : Reader}
    (htext : ∀ c ∈ text, Lexer.IsSettled c)
    (hfollows : Follows reader (text.map Token.ofChar) next) :
    Advances {} reader text {} next :=
  ⟨_, Lexer.scanAll?_settled htext, hfollows⟩

theorem advances_name {name : Name} (hname : name.IsValid) {reader next : Reader}
    (hfollows : Follows reader (name.chars.map Token.ofChar) next) :
    Advances {} reader name.chars {} next :=
  advances_settled (fun _ hc => Lexer.isSettled_of_isNameChar (hname.isNameChar hc)) hfollows

theorem advances_blank {c : Char} (hc : isBlank c = true) {reader next : Reader}
    (hstep : reader.Steps (.char c) next) : Advances {} reader [c] {} next := by
  obtain ⟨hsettled, htoken⟩ := isSettled_of_isBlank hc
  exact advances_char hsettled (htoken ▸ hstep)

/-- Blanks are passed over where every single one is. -/
theorem advances_blanks {blanks : List Char} (hblanks : AreBlanks blanks) {reader : Reader}
    (hstep : ∀ c, isBlank c = true → reader.Steps (.char c) reader) :
    Advances {} reader blanks {} reader := by
  induction blanks with
  | nil => exact .refl _ _
  | cons c blanks ih =>
      obtain ⟨hc, hblanks⟩ := List.forall_mem_cons.mp hblanks
      exact (advances_blank hc (hstep c hc)).append (ih hblanks)

end Reader

end PanelRelay.Xml
