import PanelRelay.Proofs.Xml.Following

/-!
Reading spelled text, in content and in values of attributes alike. A slash or a bracket is held back
until the character behind it is known, and may come out as part of a longer token; what counts is
that the characters of the tokens, in a row, are the text.
-/

namespace PanelRelay.Xml

@[simp] theorem Token.chars_ofChar (c : Char) : (Token.ofChar c).chars = [c] := by
  unfold Token.ofChar
  split <;> rfl

namespace Reader

/-- A reader that takes up text, whose state tells what it has taken up. -/
structure Absorbs (version : Version) (barred : List Char) (strict : Bool)
    (state : List Char → Reader) : Prop where
  opening : '<' ∈ barred
  held : '/' ∉ barred ∧ ']' ∉ barred
  char : ∀ front c, version.allowsLiteral c = true → c ∉ barred →
    (state front).Steps (Token.ofChar c) (state (front ++ [c]))
  emptyTagEnd : ∀ front, (state front).Steps .emptyTagEnd (state (front ++ Token.emptyTagEnd.chars))
  cdataEnd : strict = false → ∀ front,
    (state front).Steps .cdataEnd (state (front ++ Token.cdataEnd.chars))
  reference : ∀ front body c, Reference.ofText? version body = some (.char c) →
    Follows (state front) (.ampersand :: (body.map Token.char ++ [.semicolon])) (state (front ++ [c]))

namespace Absorbs

variable {version : Version} {barred : List Char} {strict : Bool} {state : List Char → Reader}
  {mode : Mode} {held : List Char}

theorem follows_map_ofChar (h : Absorbs version barred strict state) {text : List Char}
    (htext : ∀ c ∈ text, version.allowsLiteral c = true ∧ c ∉ barred) (front : List Char) :
    Follows (state front) (text.map Token.ofChar) (state (front ++ text)) := by
  induction text generalizing front with
  | nil =>
      rw [List.append_nil]
      exact .nil _
  | cons c text ih =>
      obtain ⟨⟨hallowed, hbarred⟩, htext⟩ := List.forall_mem_cons.mp htext
      have hrest := ih htext (front ++ [c])
      rw [List.append_assoc, List.singleton_append] at hrest
      exact .cons (h.char front c hallowed hbarred) hrest

theorem plain_of_held (h : Absorbs version barred strict state) (hheld : Lexer.Holds mode held) :
    ∀ c ∈ held, version.allowsLiteral c = true ∧ c ∉ barred := by
  have hslash : version.allowsLiteral '/' = true ∧ '/' ∉ barred :=
    ⟨by cases version <;> decide, h.held.1⟩
  have hbracket : version.allowsLiteral ']' = true ∧ ']' ∉ barred :=
    ⟨by cases version <;> decide, h.held.2⟩
  cases hheld with
  | nothing => exact nofun
  | slash => exact List.forall_mem_singleton.mpr hslash
  | bracket => exact List.forall_mem_singleton.mpr hbracket
  | brackets => exact List.forall_mem_cons.mpr ⟨hbracket, List.forall_mem_singleton.mpr hbracket⟩

/-- One more character: what comes out is taken up, and what is held back is still to come. -/
theorem follows_literal (h : Absorbs version barred strict state) (hheld : Lexer.Holds mode held)
    {c : Char} (hallowed : version.allowsLiteral c = true) (hbarred : c ∉ barred)
    (hend : strict = true → ¬ Token.cdataEnd.chars <:+: held ++ [c]) (front : List Char) :
    ∃ next tokens done later,
      ({ mode } : Lexer).scan? c = some (tokens, { mode := next }) ∧ Lexer.Holds next later ∧
        held ++ [c] = done ++ later ∧ Follows (state front) tokens (state (front ++ done)) := by
  have hplain : ∀ d ∈ held ++ [c], version.allowsLiteral d = true ∧ d ∉ barred :=
    List.forall_mem_append.mpr
      ⟨h.plain_of_held hheld, List.forall_mem_singleton.mpr ⟨hallowed, hbarred⟩⟩
  have hopen : c ≠ '<' := by
    rintro rfl
    exact hbarred h.opening
  by_cases hclose : c = '>'
  · subst hclose
    have hwhole := h.follows_map_ofChar hplain front
    cases hheld with
    | nothing => exact ⟨_, _, _, _, rfl, .nothing, rfl, hwhole⟩
    | slash => exact ⟨_, _, _, _, rfl, .nothing, rfl, .single (h.emptyTagEnd front)⟩
    | bracket => exact ⟨_, _, _, _, rfl, .nothing, rfl, hwhole⟩
    | brackets =>
        cases strict with
        | true => exact absurd (List.infix_refl _) (hend rfl)
        | false => exact ⟨_, _, _, _, rfl, .nothing, rfl, .single (h.cdataEnd rfl front)⟩
  · obtain ⟨next, done, later, hscan, hlater, heq⟩ := hheld.scan? hopen hclose
    refine ⟨next, _, done, later, hscan, hlater, heq, h.follows_map_ofChar ?_ front⟩
    exact fun d hd => hplain d (heq ▸ List.mem_append_left later hd)

end Absorbs

end Reader

namespace Reference

theorem mem_of_extend? {reference longer : List Char} {c : Char}
    (h : extend? reference c = some longer) : c = '#' ∨ isNameChar c = true := by
  rw [extend?] at h
  split at h
  next hfirst => exact .inl hfirst.2
  next => exact .inr (isNameChar_of_extendName? h).1

theorem mem_of_foldlM_extend? {body start run : List Char}
    (h : body.foldlM extend? start = some run) : ∀ c ∈ body, c = '#' ∨ isNameChar c = true := by
  induction body generalizing start with
  | nil => exact nofun
  | cons c body ih =>
      rw [List.foldlM_cons] at h
      obtain ⟨longer, hlonger, hrest⟩ := Option.bind_eq_some_iff.mp h
      exact List.forall_mem_cons.mpr ⟨mem_of_extend? hlonger, ih hrest⟩

variable {version : Version} {body : List Char} {reference : Reference}

theorem isSettled_of_mem_body (h : ofText? version body = some reference) :
    ∀ c ∈ body, Lexer.IsSettled c := by
  obtain ⟨run, hrun, -⟩ := Option.bind_eq_some_iff.mp h
  intro c hc
  rcases mem_of_foldlM_extend? hrun c hc with rfl | hname
  · exact ⟨by decide, by decide, by decide, by decide⟩
  · exact Lexer.isSettled_of_isNameChar hname

theorem map_ofChar_body (h : ofText? version body = some reference) :
    body.map Token.ofChar = body.map Token.char := by
  obtain ⟨run, hrun, -⟩ := Option.bind_eq_some_iff.mp h
  refine List.map_congr_left fun c hc => ?_
  rcases mem_of_foldlM_extend? hrun c hc with rfl | hname
  · rfl
  · exact ofChar_of_isNameChar hname

end Reference

namespace Lexer

/-- A reference makes one token of each character, behind what was held back. -/
theorem Holds.scanAll?_reference {mode : Mode} {held : List Char} (hheld : Holds mode held)
    {version : Version} {body : List Char} {reference : Reference}
    (hbody : Reference.ofText? version body = some reference) :
    ({ mode } : Lexer).scanAll? ('&' :: (body ++ [';'])) =
      some (held.map Token.ofChar ++ .ampersand :: (body.map Token.char ++ [.semicolon]), {}) := by
  have hampersand : IsSettled '&' := ⟨by decide, by decide, by decide, by decide⟩
  have hsemicolon : IsSettled ';' := ⟨by decide, by decide, by decide, by decide⟩
  have hrest : ({} : Lexer).scanAll? (body ++ [';']) =
      some ((body ++ [';']).map Token.ofChar, {}) := by
    have hall : ∀ c ∈ body ++ [';'], IsSettled c :=
      List.forall_mem_append.mpr
        ⟨Reference.isSettled_of_mem_body hbody, List.forall_mem_singleton.mpr hsemicolon⟩
    exact scanAll?_settled hall
  have hscan := scanAll?_cons (hheld.scan?_settled hampersand) hrest
  rw [List.map_append, List.map_append, Reference.map_ofChar_body hbody, List.append_assoc] at hscan
  exact hscan

end Lexer

namespace Reader.Absorbs

variable {version : Version} {barred : List Char} {strict : Bool} {state : List Char → Reader}
  {mode : Mode} {held : List Char}

/-- Spelled text is taken up, except for what the lexer still holds back at its end. -/
theorem advances (h : Absorbs version barred strict state) {written text : List Char}
    (hwritten : IsSpelled version barred written text) (hheld : Lexer.Holds mode held)
    (hend : strict = true → ¬ Token.cdataEnd.chars <:+: held ++ written) (front : List Char) :
    ∃ next done later, Lexer.Holds next later ∧ held ++ text = done ++ later ∧
      Advances { mode } (state front) written { mode := next } (state (front ++ done)) := by
  induction hwritten generalizing mode held front with
  | nil =>
      refine ⟨mode, [], held, hheld, by simp, ?_⟩
      rw [List.append_nil]
      exact .refl _ _
  | @literal c written text hallowed hbarred hrest ih =>
      have hsplit : held ++ c :: written = (held ++ [c]) ++ written := by simp
      have hfirst : strict = true → ¬ Token.cdataEnd.chars <:+: held ++ [c] := by
        intro hstrict hpart
        refine hend hstrict (hpart.trans ?_)
        rw [hsplit]
        exact (List.prefix_append _ _).isInfix
      obtain ⟨middle, tokens, first, between, hscan, hbetween, heq, hfollows⟩ :=
        h.follows_literal hheld hallowed hbarred hfirst front
      have hlater : strict = true → ¬ Token.cdataEnd.chars <:+: between ++ written := by
        intro hstrict hpart
        refine hend hstrict (hpart.trans ?_)
        rw [hsplit, heq, List.append_assoc]
        exact (List.suffix_append _ _).isInfix
      obtain ⟨next, done, later, hnext, hdone, hrest⟩ := ih hbetween hlater (front ++ first)
      refine ⟨next, first ++ done, later, hnext, ?_, ?_⟩
      · calc held ++ c :: text = (held ++ [c]) ++ text := by simp
          _ = first ++ (between ++ text) := by rw [heq, List.append_assoc]
          _ = first ++ done ++ later := by rw [hdone, List.append_assoc]
      · rw [← List.append_assoc]
        exact .cons hscan hfollows hrest
  | @reference body c written text hbody hrest ih =>
      have hlater : strict = true → ¬ Token.cdataEnd.chars <:+: [] ++ written := by
        intro hstrict hpart
        refine hend hstrict (hpart.trans ?_)
        exact ⟨held ++ '&' :: body ++ [';'], [], by simp⟩
      have hpushed := h.follows_map_ofChar (h.plain_of_held hheld) front
      have hread := hpushed.append (h.reference (front ++ held) body c hbody)
      obtain ⟨next, done, later, hnext, hdone, hrest⟩ := ih .nothing hlater (front ++ held ++ [c])
      refine ⟨next, held ++ c :: done, later, hnext, ?_, ?_⟩
      · rw [List.nil_append] at hdone
        rw [hdone, List.append_assoc, List.cons_append]
      · have hsplit : '&' :: (body ++ ';' :: written) = '&' :: (body ++ [';']) ++ written := by simp
        have hfront : front ++ (held ++ c :: done) = front ++ held ++ [c] ++ done := by simp
        rw [hsplit, hfront]
        exact .append ⟨_, hheld.scanAll?_reference hbody, hread⟩ hrest

/-- The bracket that begins markup makes all of the text come out. -/
theorem advances_open (h : Absorbs version barred strict state) {written text : List Char}
    (hwritten : IsSpelled version barred written text)
    (hend : strict = true → ¬ Token.cdataEnd.chars <:+: written) (front : List Char) :
    Advances {} (state front) (written ++ ['<']) { mode := .angle } (state (front ++ text)) := by
  obtain ⟨next, done, later, hlater, heq, hadvances⟩ := h.advances hwritten .nothing hend front
  have hpushed := h.follows_map_ofChar (h.plain_of_held hlater) (front ++ done)
  rw [List.append_assoc, ← heq, List.nil_append] at hpushed
  exact hadvances.append (.cons hlater.scan?_open hpushed (.refl _ _))

/-- So does a character that has no part in a mark. -/
theorem advances_settled (h : Absorbs version barred strict state) {written text : List Char}
    (hwritten : IsSpelled version barred written text)
    (hend : strict = true → ¬ Token.cdataEnd.chars <:+: written) (front : List Char) {c : Char}
    (hc : Lexer.IsSettled c) {next : Reader}
    (hstep : (state (front ++ text)).Steps (Token.ofChar c) next) :
    Advances {} (state front) (written ++ [c]) {} next := by
  obtain ⟨last, done, later, hlater, heq, hadvances⟩ := h.advances hwritten .nothing hend front
  have hpushed := h.follows_map_ofChar (h.plain_of_held hlater) (front ++ done)
  rw [List.append_assoc, ← heq, List.nil_append] at hpushed
  refine hadvances.append (.cons (hlater.scan?_settled hc) ?_ (.refl _ _))
  rw [List.map_append]
  exact hpushed.append (.single hstep)

end Reader.Absorbs

end PanelRelay.Xml
