import PanelRelay.Proofs.Xml.StartTag

/-!
Reading comments, character data and instructions. Up to the mark at the end each character comes out
by itself, although the beginning of such a mark is held back.
-/

namespace PanelRelay.Xml

namespace Lexer

/--
How a kind of markup is cut into tokens: what is held back in which mode, the token of a character,
what may not occur in the text with the tail behind it, and the mark at the end.
-/
structure IsEnclosed (holds : Mode → List Char → Prop) (token : Char → Token)
    (cut tail : List Char) (mark : Token) : Prop where
  char : ∀ mode held c, holds mode held → ¬ cut <:+: held ++ [c] →
    ∃ next done later, ({ mode } : Lexer).scan? c = some (done.map token, { mode := next }) ∧
      holds next later ∧ held ++ [c] = done ++ later
  ending : ∀ mode held, holds mode held → ¬ cut <:+: held ++ tail →
    ({ mode } : Lexer).scanAll? mark.chars = some (held.map token ++ [mark], {})

theorem IsEnclosed.scanAll? {holds : Mode → List Char → Prop} {token : Char → Token}
    {cut tail : List Char} {mark : Token} (h : IsEnclosed holds token cut tail mark) {mode : Mode}
    {held text : List Char} (hheld : holds mode held) (hcut : ¬ cut <:+: held ++ text ++ tail) :
    ({ mode } : Lexer).scanAll? (text ++ mark.chars) =
      some ((held ++ text).map token ++ [mark], {}) := by
  induction text generalizing mode held with
  | nil =>
      rw [List.append_nil] at hcut ⊢
      exact h.ending mode held hheld hcut
  | cons c text ih =>
      have hsplit : held ++ c :: text = (held ++ [c]) ++ text := by simp
      rw [hsplit] at hcut ⊢
      have hfirst : ¬ cut <:+: held ++ [c] := by
        intro hpart
        refine hcut (hpart.trans ?_)
        rw [List.append_assoc]
        exact (List.prefix_append _ _).isInfix
      obtain ⟨next, done, later, hscan, hlater, heq⟩ := h.char mode held c hheld hfirst
      have hrest : ¬ cut <:+: later ++ text ++ tail := by
        intro hpart
        have hsuffix : held ++ [c] ++ text ++ tail = done ++ (later ++ text ++ tail) := by simp [heq]
        rw [hsuffix] at hcut
        exact hcut (hpart.trans (List.suffix_append _ _).isInfix)
      have hall := scanAll?_cons hscan (ih hlater hrest)
      rw [List.cons_append, hall, heq]
      simp

inductive CommentHolds : Mode → List Char → Prop where
  | nothing : CommentHolds .comment []
  | hyphen : CommentHolds .commentHyphen ['-']

theorem isEnclosed_comment : IsEnclosed CommentHolds .char ['-', '-'] ['-'] .commentEnd where
  char mode held c hheld hcut := by
    by_cases hhyphen : c = '-'
    · subst hhyphen
      cases hheld with
      | nothing => exact ⟨_, [], _, rfl, .hyphen, rfl⟩
      | hyphen => exact absurd (List.infix_refl _) hcut
    · refine ⟨.comment, held ++ [c], [], ?_, .nothing, (List.append_nil _).symm⟩
      cases hheld <;> simp [scan?, comment, hhyphen, behind, enter]
  ending mode held hheld hcut := by
    cases hheld with
    | nothing => rfl
    | hyphen => exact absurd (List.infix_refl _) hcut

inductive CdataHolds : Mode → List Char → Prop where
  | nothing : CdataHolds .cdata []
  | bracket : CdataHolds .cdataBracket [']']
  | brackets : CdataHolds .cdataBrackets [']', ']']

theorem isEnclosed_cdata : IsEnclosed CdataHolds .char Token.cdataEnd.chars [] .cdataEnd where
  char mode held c hheld hcut := by
    by_cases hbracket : c = ']'
    · subst hbracket
      cases hheld with
      | nothing => exact ⟨_, [], _, rfl, .bracket, rfl⟩
      | bracket => exact ⟨_, [], _, rfl, .brackets, rfl⟩
      | brackets => exact ⟨_, [']'], _, rfl, .brackets, rfl⟩
    · refine ⟨.cdata, held ++ [c], [], ?_, .nothing, (List.append_nil _).symm⟩
      cases hheld with
      | nothing => simp [scan?, cdata, hbracket, enter]
      | bracket => simp [scan?, cdata, hbracket, behind, enter]
      | brackets =>
          have hclose : c ≠ '>' := by
            rintro rfl
            exact hcut (List.infix_refl _)
          simp [scan?, cdata, hbracket, hclose, behind, enter]
  ending mode held hheld _ := by
    cases hheld <;> rfl

inductive InstructionHolds : Mode → List Char → Prop where
  | nothing : InstructionHolds .instruction []
  | questionMark : InstructionHolds .questionMark ['?']

/-- The token of a character in an instruction, where slashes and angle brackets begin nothing. -/
def instructionToken (c : Char) : Token :=
  if c = '<' then .tagStart
  else if c = '/' then .endTagStart
  else Token.ofChar c

theorem isEnclosed_instruction :
    IsEnclosed InstructionHolds instructionToken Token.instructionEnd.chars [] .instructionEnd where
  char mode held c hheld hcut := by
    by_cases hquestion : c = '?'
    · subst hquestion
      cases hheld with
      | nothing => exact ⟨_, [], _, rfl, .questionMark, rfl⟩
      | questionMark => exact ⟨_, ['?'], _, rfl, .questionMark, rfl⟩
    · refine ⟨.instruction, held ++ [c], [], ?_, .nothing, (List.append_nil _).symm⟩
      have hscan : ({ mode } : Lexer).instruction c =
          ([instructionToken c], { mode := .instruction }) := by
        unfold Lexer.instruction instructionToken
        rw [if_neg hquestion]
        split
        next => rfl
        next => split <;> rfl
      cases hheld with
      | nothing => simp [scan?, hscan]
      | questionMark =>
          have hclose : c ≠ '>' := by
            rintro rfl
            exact hcut (List.infix_refl _)
          have hheld : instructionToken '?' = .char '?' := rfl
          simp [scan?, hclose, hscan, behind, hheld]
  ending mode held hheld _ := by
    cases hheld <;> rfl

theorem scanAll?_plainInstruction {text : List Char}
    (htext : ∀ c ∈ text, isNameChar c = true ∨ isBlank c = true) :
    ({ mode := .instruction } : Lexer).scanAll? text =
      some (text.map Token.char, { mode := .instruction }) := by
  induction text with
  | nil => rfl
  | cons c text ih =>
      obtain ⟨hc, htext⟩ := List.forall_mem_cons.mp htext
      have hplain : IsSettled c ∧ Token.ofChar c = .char c ∧ c ≠ '?' := by
        rcases hc with hname | hblank
        · refine ⟨isSettled_of_isNameChar hname, ofChar_of_isNameChar hname, ?_⟩
          rintro rfl
          exact absurd hname (by decide)
        · refine ⟨(isSettled_of_isBlank hblank).1, (isSettled_of_isBlank hblank).2, ?_⟩
          rintro rfl
          exact absurd hblank (by decide)
      obtain ⟨⟨hopen, -, hslash, -⟩, htoken, hquestion⟩ := hplain
      have hscan : ({ mode := .instruction } : Lexer).scan? c =
          some ([.char c], { mode := .instruction }) := by
        simp [scan?, instruction, hopen, hslash, hquestion, htoken, enter]
      exact scanAll?_cons hscan (ih htext)

end Lexer

/-- A node behind all that has been built so far. -/
def Nesting.take (nesting : Nesting) (node : Node) : Nesting :=
  match node with
  | .element tag children => nesting.place { tag, children }
  | node => nesting.note node

namespace Reader

theorem steps_of_place {reader next : Reader} {token : Token} (hplace : reader.place = .content)
    (hstep : ∀ lexer : Lexer,
      { reader with lexer }.acceptContent? token = some { next with lexer }) :
    reader.Steps token next := by
  intro lexer
  obtain ⟨_, _, place, _, _, _, _, _⟩ := reader
  obtain rfl : place = .content := hplace
  exact congrArg (Option.map (·, [])) (hstep lexer)

/-- A reader of content that has no text left to add. -/
def resting (version : Version) (nesting : Nesting) (admitsDoctype loud : Bool) : Reader where
  version := version
  nesting := nesting
  isLayout := !loud
  admitsDoctype := admitsDoctype

/-- A reader of content at the bracket that begins markup, where the text before it is to be added. -/
structure IsPoised (version : Version) (nesting : Nesting) (admitsDoctype : Bool)
    (reader : Reader) : Prop where
  place_eq : reader.place = .content
  isOpen_eq : reader.nesting.isOpen = nesting.isOpen
  flush_eq : reader.flush = resting version nesting admitsDoctype false

namespace IsPoised

variable {version : Version} {nesting : Nesting} {admitsDoctype : Bool} {reader : Reader}

theorem flush_withLexer (h : IsPoised version nesting admitsDoctype reader) (lexer : Lexer) :
    { reader with lexer }.flush = { resting version nesting admitsDoctype false with lexer } := by
  rw [← h.flush_eq]
  rfl

theorem steps_tagStart (h : IsPoised version nesting admitsDoctype reader) :
    reader.Steps .tagStart ((resting version nesting false false).atStart (.tagName [])) := by
  refine steps_of_place h.place_eq fun lexer => ?_
  unfold acceptContent?
  dsimp only
  rw [h.flush_withLexer lexer]
  rfl

theorem steps_endTagStart (h : IsPoised version nesting admitsDoctype reader)
    (hopen : nesting.isOpen = true) :
    reader.Steps .endTagStart
      ((resting version nesting admitsDoctype false).enter (.endName [])) := by
  refine steps_of_place h.place_eq fun lexer => ?_
  have hreader : reader.nesting.isOpen = true := h.isOpen_eq.trans hopen
  unfold acceptContent?
  dsimp only
  rw [if_pos hreader, h.flush_withLexer lexer]
  rfl

theorem steps_commentStart (h : IsPoised version nesting admitsDoctype reader) :
    reader.Steps .commentStart
      ((resting version nesting admitsDoctype false).enter (.comment [])) := by
  refine steps_of_place h.place_eq fun lexer => ?_
  unfold acceptContent?
  dsimp only
  rw [h.flush_withLexer lexer]
  rfl

theorem steps_cdataStart (h : IsPoised version nesting admitsDoctype reader)
    (hopen : nesting.isOpen = true) :
    reader.Steps .cdataStart ((resting version nesting admitsDoctype false).enter (.cdata [])) := by
  refine steps_of_place h.place_eq fun lexer => ?_
  have hreader : reader.nesting.isOpen = true := h.isOpen_eq.trans hopen
  unfold acceptContent?
  dsimp only
  rw [if_pos hreader, h.flush_withLexer lexer]
  rfl

theorem steps_instructionStart (h : IsPoised version nesting admitsDoctype reader) :
    reader.Steps .instructionStart
      ((resting version nesting admitsDoctype false).enter (.target [])) := by
  refine steps_of_place h.place_eq fun lexer => ?_
  unfold acceptContent?
  dsimp only
  rw [h.flush_withLexer lexer]
  rfl

end IsPoised

/-- Tokens that a reader collects one by one, in reverse. -/
theorem follows_collected {state : List Char → Reader} {token : Char → Token} {p : Char → Prop}
    (hstep : ∀ run c, p c →
      (state run).Steps (token c) (state ((token c).chars.reverse ++ run)))
    {text : List Char} (htext : ∀ c ∈ text, p c) (run : List Char) :
    Follows (state run) (text.map token)
      (state ((text.flatMap fun c => (token c).chars).reverse ++ run)) := by
  induction text generalizing run with
  | nil => exact .nil _
  | cons c text ih =>
      obtain ⟨hc, htext⟩ := List.forall_mem_cons.mp htext
      have hrest := ih htext ((token c).chars.reverse ++ run)
      rw [← List.append_assoc, ← List.reverse_append] at hrest
      exact .cons (hstep run c hc) hrest

theorem flatMap_chars_char (text : List Char) :
    (text.flatMap fun c => (Token.char c).chars) = text :=
  List.flatMap_singleton' text

variable {version : Version} {nesting : Nesting} {admitsDoctype : Bool} {reader : Reader}
  {content : List Char}

theorem follows_comment (hallowed : ∀ c ∈ content, version.allows c = true) :
    Follows ((resting version nesting admitsDoctype false).enter (.comment []))
      (content.map Token.char ++ [.commentEnd])
      (resting version (nesting.note (.comment (String.ofList content))) admitsDoctype false) := by
  have hstep : ∀ run c, version.allows c = true →
      ((resting version nesting admitsDoctype false).enter (.comment run)).Steps (.char c)
        ((resting version nesting admitsDoctype false).enter (.comment (c :: run))) := by
    intro run c hc lexer
    unfold accept? acceptComment?
    simp [enter, resting, hc]
  have hcollect := follows_collected hstep hallowed []
  rw [flatMap_chars_char, List.append_nil] at hcollect
  refine hcollect.append (.single fun lexer => ?_)
  unfold accept? acceptComment?
  simp [enter, resting, note]

theorem follows_cdata (hallowed : ∀ c ∈ content, version.allows c = true) :
    Follows ((resting version nesting admitsDoctype false).enter (.cdata []))
      (content.map Token.char ++ [.cdataEnd])
      (resting version (nesting.note (.cdata (String.ofList content))) admitsDoctype
        (!content.all isBlank)) := by
  have hstep : ∀ run c, version.allows c = true →
      ((resting version nesting admitsDoctype (!run.all isBlank)).enter (.cdata run)).Steps (.char c)
        ((resting version nesting admitsDoctype (!(c :: run).all isBlank)).enter
          (.cdata (c :: run))) := by
    intro run c hc lexer
    unfold accept? acceptCdata?
    simp [enter, resting, hc, Bool.and_comm]
  have hcollect := follows_collected hstep hallowed []
  rw [flatMap_chars_char, List.append_nil] at hcollect
  refine hcollect.append (.single fun lexer => ?_)
  unfold accept? acceptCdata?
  simp [enter, resting, note]

theorem follows_target {target : List Char} (htarget : IsTarget target) :
    Follows (reader.enter (.target [])) (target.map Token.char)
      (reader.enter (.target target.reverse)) := by
  refine follows_chars .target ?_ (foldlM_extendName? htarget.1 htarget.2.1)
  intro run c longer hextend lexer
  have hblank := not_isBlank_of_isNameChar (isNameChar_of_extendName? hextend).1
  unfold accept? acceptTarget?
  simp [enter, hblank, hextend]

theorem follows_bareInstruction {target : List Char} (htarget : IsTarget target) :
    Follows ((resting version nesting admitsDoctype false).enter (.target []))
      (target.map Token.char ++ [.instructionEnd])
      (resting version (nesting.note (.instruction (String.ofList target) none)) admitsDoctype
        false) := by
  refine (follows_target htarget).append (.single fun lexer => ?_)
  have hnonempty : target ≠ [] := by
    rintro rfl
    cases htarget.1
  unfold accept? acceptTarget?
  simp [enter, resting, note, hnonempty, htarget.2.2]

theorem chars_instructionToken (c : Char) :
    (Lexer.instructionToken c).chars = if c = '/' then Token.endTagStart.chars else [c] := by
  unfold Lexer.instructionToken
  split
  next h =>
    subst h
    rfl
  next =>
    split
    next => rfl
    next => exact Token.chars_ofChar c

theorem steps_instructionToken {target : String} {run : List Char} {c : Char}
    (hc : reader.version.allows c = true) :
    (reader.enter (.data target run)).Steps (Lexer.instructionToken c)
      (reader.enter (.data target ((Lexer.instructionToken c).chars.reverse ++ run))) := by
  intro lexer
  unfold Lexer.instructionToken
  split
  next => rfl
  next =>
    split
    next => rfl
    next =>
      unfold Token.ofChar
      split
      all_goals first
        | rfl
        | (unfold accept? acceptData?
           simp [enter, hc, Token.chars])

theorem follows_data {target : String} {data : List Char}
    (hallowed : ∀ c ∈ data, version.allows c = true) :
    Follows ((resting version nesting admitsDoctype false).enter (.data target []))
      (data.map Lexer.instructionToken ++ [.instructionEnd])
      (resting version (nesting.note (.instruction target (some (instructionData data))))
        admitsDoctype false) := by
  have hstep : ∀ run c, version.allows c = true →
      ((resting version nesting admitsDoctype false).enter
        (.data target run)).Steps (Lexer.instructionToken c)
      ((resting version nesting admitsDoctype false).enter
        (.data target ((Lexer.instructionToken c).chars.reverse ++ run))) :=
    fun run c hc => steps_instructionToken hc
  refine (follows_collected hstep hallowed []).append (.single fun lexer => ?_)
  unfold accept? acceptData?
  simp [enter, resting, note, instructionData, chars_instructionToken]

theorem follows_instruction {target data : List Char} {blank : Char} (htarget : IsTarget target)
    (hblank : isBlank blank = true) (hallowed : ∀ c ∈ data, version.allows c = true) :
    Follows ((resting version nesting admitsDoctype false).enter (.target []))
      (target.map Token.char ++ .char blank :: (data.map Lexer.instructionToken ++
        [.instructionEnd]))
      (resting version (nesting.note (.instruction (String.ofList target)
        (some (instructionData data)))) admitsDoctype false) := by
  have hleave : ((resting version nesting admitsDoctype false).enter
        (.target target.reverse)).Steps (.char blank)
      ((resting version nesting admitsDoctype false).enter (.data (String.ofList target) [])) := by
    intro lexer
    unfold accept? acceptTarget?
    simp [enter, hblank, htarget.2.2]
  exact (follows_target htarget).append (.cons hleave (follows_data hallowed))

variable (hreader : IsPoised version nesting admitsDoctype reader)

include hreader

theorem advances_comment (hallowed : ∀ c ∈ content, version.allows c = true)
    (hend : ¬ ['-', '-'] <:+: content ++ ['-']) :
    Advances { mode := .angle } reader
      (Token.commentStart.chars ++ content ++ Token.commentEnd.chars).tail {}
      (resting version (nesting.note (.comment (String.ofList content))) admitsDoctype false) := by
  have hscan := Lexer.isEnclosed_comment.scanAll? .nothing hend
  exact .cons rfl (.nil _) (.cons rfl (.nil _) (.cons rfl (.single hreader.steps_commentStart)
    ⟨_, hscan, follows_comment hallowed⟩))

theorem advances_cdata (hopen : nesting.isOpen = true)
    (hallowed : ∀ c ∈ content, version.allows c = true)
    (hend : ¬ Token.cdataEnd.chars <:+: content) :
    Advances { mode := .angle } reader
      (Token.cdataStart.chars ++ content ++ Token.cdataEnd.chars).tail {}
      (resting version (nesting.note (.cdata (String.ofList content))) admitsDoctype
        (!content.all isBlank)) := by
  rw [← List.append_nil content] at hend
  have hscan := Lexer.isEnclosed_cdata.scanAll? .nothing hend
  have hmark : ({ mode := .angle } : Lexer).scanAll? Token.cdataStart.chars.tail =
      some ([.cdataStart], { mode := .cdata }) := by
    decide +kernel
  have hopening : Advances { mode := .angle } reader Token.cdataStart.chars.tail
      { mode := .cdata } _ :=
    ⟨_, hmark, .single (hreader.steps_cdataStart hopen)⟩
  exact hopening.append ⟨_, hscan, follows_cdata hallowed⟩

theorem advances_instructionStart :
    Advances { mode := .angle } reader ['?'] { mode := .instruction }
      ((resting version nesting admitsDoctype false).enter (.target [])) :=
  .cons rfl (.single hreader.steps_instructionStart) (.refl _ _)

theorem advances_bareInstruction {target : List Char} (htarget : IsTarget target) :
    Advances { mode := .angle } reader
      (Token.instructionStart.chars ++ target ++ Token.instructionEnd.chars).tail {}
      (resting version (nesting.note (.instruction (String.ofList target) none)) admitsDoctype
        false) := by
  have hname := Lexer.scanAll?_plainInstruction fun c hc => .inl (htarget.2.1 c hc)
  have hend : ({ mode := .instruction } : Lexer).scanAll? Token.instructionEnd.chars =
      some ([.instructionEnd], {}) := rfl
  exact (advances_instructionStart hreader).append
    ⟨_, Lexer.scanAll?_append hname hend, follows_bareInstruction htarget⟩

theorem advances_instruction {target data : List Char} {blank : Char} (htarget : IsTarget target)
    (hblank : isBlank blank = true) (hallowed : ∀ c ∈ data, version.allows c = true)
    (hend : ¬ Token.instructionEnd.chars <:+: data) :
    Advances { mode := .angle } reader
      (Token.instructionStart.chars ++ target ++ blank :: data ++ Token.instructionEnd.chars).tail {}
      (resting version (nesting.note (.instruction (String.ofList target)
        (some (instructionData data)))) admitsDoctype false) := by
  rw [← List.append_nil data] at hend
  have hname := Lexer.scanAll?_plainInstruction fun c hc => .inl (htarget.2.1 c hc)
  have hgap := Lexer.scanAll?_plainInstruction (List.forall_mem_singleton.mpr (.inr hblank))
  have hscan := Lexer.isEnclosed_instruction.scanAll? .nothing hend
  have hsplit : (Token.instructionStart.chars ++ target ++ blank :: data ++
      Token.instructionEnd.chars).tail =
        ['?'] ++ (target ++ ([blank] ++ (data ++ Token.instructionEnd.chars))) := by
    simp [Token.chars]
  rw [hsplit]
  exact (advances_instructionStart hreader).append
    ⟨_, Lexer.scanAll?_append hname (Lexer.scanAll?_append hgap hscan),
      follows_instruction htarget hblank hallowed⟩

end Reader

end PanelRelay.Xml
