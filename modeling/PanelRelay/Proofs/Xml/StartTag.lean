import PanelRelay.Proofs.Xml.Absorbing

/-!
Reading start tags: name, attributes with any blanks around their parts, values in either quotes, and
the references in them.
-/

namespace PanelRelay.Xml

theorem OpenValue.append_append (value : OpenValue) (front text : List Char) :
    (value.append front).append text = value.append (front ++ text) := by
  simp [append]

namespace StartTag

variable {version : Version} {tag : Tag} {start : StartTag}

/-- A start tag that is complete unless it goes on. -/
inductive Settled : Tag → StartTag → Prop where
  | named {name : Name} (hname : name.IsValid) :
      Settled { name } (.tagName name.chars.reverse)
  | inside (tag : Tag) : Settled tag (.inside tag)
  | after (tag : Tag) : Settled tag (.afterValue tag)

theorem Settled.accept?_isBlank (hstart : Settled tag start) {c : Char} (hc : isBlank c = true) :
    start.accept? version (.char c) = some (.more (.inside tag)) := by
  cases hstart with
  | named hname =>
      unfold StartTag.accept? acceptTagName?
      simp only [hc, if_true, List.reverse_reverse, hname.ofChars?, Option.map_some]
  | inside =>
      unfold StartTag.accept? acceptInside?
      simp only [hc, if_true]
  | after =>
      unfold StartTag.accept?
      simp only [hc, if_true]

theorem Settled.accept?_end (hstart : Settled tag start)
    (hnodup : (tag.ordinary.map Attribute.name).Nodup) (closed : Bool) :
    start.accept? version (if closed then .emptyTagEnd else .tagEnd) =
      some (.finish tag closed) := by
  have hfinish : finish? tag closed = some (.finish tag closed) := if_pos hnodup
  unfold StartTag.accept?
  cases hstart with
  | named hname =>
      unfold acceptTagName?
      cases closed <;> simp [hname.ofChars?, hfinish]
  | inside =>
      unfold acceptInside?
      cases closed <;> simp [hfinish]
  | after => cases closed <;> simp [hfinish]

theorem accept?_tagName {run longer : List Char} {c : Char}
    (hextend : extendName? run c = some longer) :
    (StartTag.tagName run).accept? version (.char c) = some (.more (.tagName longer)) := by
  have hblank := not_isBlank_of_isNameChar (isNameChar_of_extendName? hextend).1
  unfold StartTag.accept? acceptTagName?
  simp [hblank, hextend]

def naming (tag : Tag) (run : List Char) : StartTag :=
  if run = [] then .inside tag else .attributeName tag run

theorem accept?_naming {run longer : List Char} {c : Char}
    (hextend : extendName? run c = some longer) :
    (naming tag run).accept? version (.char c) = some (.more (naming tag longer)) := by
  obtain ⟨hname, rfl⟩ := isNameChar_of_extendName? hextend
  have hblank := not_isBlank_of_isNameChar hname
  unfold StartTag.accept?
  by_cases hrun : run = []
  · subst hrun
    unfold acceptInside?
    simp [naming, hblank, hextend]
  · unfold acceptAttributeName?
    simp [naming, hrun, hblank, hextend]

/-- In a value all is literal but what begins markup or a reference, and the quote around it. -/
theorem accept?_inValue {value : OpenValue} {c : Char} (hallowed : version.allowsLiteral c = true)
    (hbarred : c ∉ ['<', '&', value.quote.char]) :
    (StartTag.inValue value).accept? version (Token.ofChar c) =
      some (.more (.inValue (value.append [c]))) := by
  have hampersand : c ≠ '&' := by
    rintro rfl
    exact hbarred (by simp)
  have hquote : ∀ quote : Quote, c = quote.char → quote ≠ value.quote := by
    rintro quote rfl rfl
    exact hbarred (by simp)
  unfold Token.ofChar
  split
  · rfl
  · rfl
  · exact if_neg (hquote .double rfl)
  · exact if_neg (hquote .single rfl)
  · exact absurd rfl hampersand
  · rfl
  · exact if_pos hallowed

end StartTag

namespace Reader

open StartTag (Settled)

variable {reader : Reader} {tag : Tag} {start next : StartTag} {token : Token}

def atStart (reader : Reader) (start : StartTag) : Reader :=
  reader.enter (.startTag start)

theorem steps_more (h : start.accept? reader.version token = some (.more next)) :
    (reader.atStart start).Steps token (reader.atStart next) := by
  intro lexer
  simp only [accept?, acceptStartTag?, atStart, enter, h, Option.map_some]

theorem steps_finish {closed : Bool}
    (h : start.accept? reader.version token = some (.finish tag closed)) :
    (reader.atStart start).Steps token
      { reader with nesting := reader.nesting.start tag closed, place := .content } := by
  intro lexer
  simp only [accept?, acceptStartTag?, atStart, enter, h, Option.map_some]

theorem follows_tagName {name : Name} (hname : name.IsValid) :
    Follows (reader.atStart (.tagName [])) (name.chars.map Token.ofChar)
      (reader.atStart (.tagName name.chars.reverse)) := by
  apply follows_name hname fun run => .startTag (.tagName run)
  exact fun run c longer hextend => steps_more (StartTag.accept?_tagName hextend)

theorem follows_attributeName {name : Name} (hname : name.IsValid) :
    Follows (reader.atStart (.inside tag)) (name.chars.map Token.ofChar)
      (reader.atStart (.attributeName tag name.chars.reverse)) := by
  obtain ⟨first, rest, hchars, -⟩ := hname.exists_cons
  have hnonempty : StartTag.naming tag name.chars.reverse =
      .attributeName tag name.chars.reverse := if_neg (by simp [hchars])
  rw [← hnonempty]
  apply follows_name hname fun run => .startTag (StartTag.naming tag run)
  exact fun run c longer hextend => steps_more (StartTag.accept?_naming hextend)

variable {value : OpenValue}

theorem follows_valueReference {body : List Char} {c : Char}
    (hbody : Reference.ofText? reader.version body = some (.char c)) :
    Follows (reader.atStart (.inValue value))
      (.ampersand :: (body.map Token.char ++ [.semicolon]))
      (reader.atStart (.inValue (value.append [c]))) := by
  obtain ⟨run, hrun, hchar⟩ := Option.bind_eq_some_iff.mp hbody
  have hopen : (reader.atStart (.inValue value)).Steps .ampersand
      (reader.enter (.valueReference value [])) := fun _ => rfl
  have hclose : (reader.enter (.valueReference value run)).Steps .semicolon
      (reader.atStart (.inValue (value.append [c]))) := by
    intro lexer
    unfold accept? acceptValueReference?
    simp only [atStart, enter, hchar, Option.map_some]
  refine .cons hopen (.append (follows_chars (.valueReference value) ?_ hrun) (.single hclose))
  intro run c longer hextend lexer
  unfold accept? acceptValueReference?
  simp only [enter, hextend, Option.map_some]

theorem advances_toInside (hstart : Settled tag start) {blanks : List Char}
    (hblanks : AreBlanks blanks) (hnonempty : blanks ≠ []) :
    Advances {} (reader.atStart start) blanks {} (reader.atStart (.inside tag)) := by
  obtain ⟨c, blanks, rfl⟩ := List.exists_cons_of_ne_nil hnonempty
  obtain ⟨hc, hblanks⟩ := List.forall_mem_cons.mp hblanks
  have hfirst : Advances {} (reader.atStart start) [c] {} (reader.atStart (.inside tag)) :=
    advances_blank hc (steps_more (hstart.accept?_isBlank hc))
  refine hfirst.append (advances_blanks hblanks fun d hd => ?_)
  exact steps_more ((Settled.inside tag).accept?_isBlank hd)

/-- The name of an attribute, and all blanks up to the value. -/
theorem advances_toValue {name : Name} (hname : name.IsValid) {before behind : List Char}
    (hbefore : AreBlanks before) (hbehind : AreBlanks behind) :
    Advances {} (reader.atStart (.inside tag)) (name.chars ++ before ++ '=' :: behind) {}
      (reader.atStart (.beforeValue tag name)) := by
  have hread : Advances {} (reader.atStart (.inside tag)) name.chars {}
      (reader.atStart (.attributeName tag name.chars.reverse)) :=
    advances_name hname (follows_attributeName hname)
  have hequals : Lexer.IsSettled '=' := ⟨by decide, by decide, by decide, by decide⟩
  have hafter : Advances {} (reader.atStart (.beforeValue tag name)) behind {}
      (reader.atStart (.beforeValue tag name)) := by
    refine advances_blanks hbehind fun c hc => steps_more ?_
    exact if_pos hc
  cases before with
  | nil =>
      have hassign : Advances {} (reader.atStart (.attributeName tag name.chars.reverse)) ['='] {}
          (reader.atStart (.beforeValue tag name)) := by
        refine advances_char hequals (steps_more ?_)
        unfold StartTag.accept? StartTag.acceptAttributeName?
        simp [Token.ofChar, hname.ofChars?]
      rw [List.append_nil]
      exact hread.append (hassign.append hafter)
  | cons c before =>
      obtain ⟨hc, hbefore⟩ := List.forall_mem_cons.mp hbefore
      have hleave : Advances {} (reader.atStart (.attributeName tag name.chars.reverse)) [c] {}
          (reader.atStart (.beforeEquals tag name)) := by
        refine advances_blank hc (steps_more ?_)
        unfold StartTag.accept? StartTag.acceptAttributeName?
        simp [hc, hname.ofChars?]
      have hmore : Advances {} (reader.atStart (.beforeEquals tag name)) before {}
          (reader.atStart (.beforeEquals tag name)) := by
        refine advances_blanks hbefore fun d hd => steps_more ?_
        exact if_pos hd
      have hassign : Advances {} (reader.atStart (.beforeEquals tag name)) ['='] {}
          (reader.atStart (.beforeValue tag name)) :=
        advances_char hequals (steps_more rfl)
      exact (hread.append (hleave.append hmore)).append (hassign.append hafter)

theorem absorbs_value (reader : Reader) (value : OpenValue) :
    Absorbs reader.version ['<', '&', value.quote.char] false
      fun text => reader.atStart (.inValue (value.append text)) where
  opening := by simp
  held := by cases value.quote <;> decide
  char front c hallowed hbarred := by
    rw [← OpenValue.append_append]
    exact steps_more (StartTag.accept?_inValue hallowed hbarred)
  emptyTagEnd front := by
    rw [← OpenValue.append_append]
    exact steps_more rfl
  cdataEnd _ front := by
    rw [← OpenValue.append_append]
    exact steps_more rfl
  reference front body c hbody := by
    rw [← OpenValue.append_append]
    exact follows_valueReference hbody

theorem advances_value (quote : Quote) {item : Attribute} {written : List Char}
    (hvalue : IsSpelled reader.version ['<', '&', quote.char] written item.value.toList) :
    Advances {} (reader.atStart (.beforeValue tag item.name))
      (quote.char :: written ++ [quote.char]) {}
      (reader.atStart (.afterValue { tag with attributes := tag.attributes ++ [item] })) := by
  have hquote : Lexer.IsSettled quote.char ∧ Token.ofChar quote.char = .quote quote := by
    cases quote <;> exact ⟨⟨by decide, by decide, by decide, by decide⟩, rfl⟩
  have hopen : Advances {} (reader.atStart (.beforeValue tag item.name)) [quote.char] {}
      (reader.atStart (.inValue { tag, name := item.name, quote })) :=
    advances_char hquote.1 (hquote.2 ▸ steps_more rfl)
  have hclose : (reader.atStart (.inValue (OpenValue.append
        { tag, name := item.name, quote } item.value.toList))).Steps (Token.ofChar quote.char)
      (reader.atStart (.afterValue { tag with attributes := tag.attributes ++ [item] })) := by
    rw [hquote.2]
    apply steps_more
    unfold StartTag.accept? StartTag.acceptValue?
    simp [OpenValue.append, OpenValue.close]
  have habsorbs := absorbs_value reader { tag, name := item.name, quote }
  exact hopen.append (habsorbs.advances_settled hvalue nofun [] hquote.1 hclose)

theorem advances_attributes {items : List Attribute} {written : List Char}
    (hwritten : IsAttributes reader.version written items) (hstart : Settled tag start) :
    ∃ last, Settled { tag with attributes := tag.attributes ++ items } last ∧
      Advances {} (reader.atStart start) written {} (reader.atStart last) := by
  induction hwritten generalizing tag start with
  | nil => exact ⟨start, by simpa using hstart, .refl _ _⟩
  | @cons blanks before behind written rest quote item items hblanks hnonempty hname hbefore
      hbehind hvalue hrest ih =>
      obtain ⟨last, hlast, hrest⟩ := ih (.after { tag with attributes := tag.attributes ++ [item] })
      refine ⟨last, by simpa using hlast, ?_⟩
      have hsplit : blanks ++ item.name.chars ++ before ++ '=' :: behind ++ quote.char :: written ++
          quote.char :: rest = blanks ++ ((item.name.chars ++ before ++ '=' :: behind) ++
            ((quote.char :: written ++ [quote.char]) ++ rest)) := by simp
      rw [hsplit]
      exact (advances_toInside hstart hblanks hnonempty).append
        ((advances_toValue hname hbefore hbehind).append
          ((advances_value quote hvalue).append hrest))

theorem advances_tagBlanks (hstart : Settled tag start) {blanks : List Char}
    (hblanks : AreBlanks blanks) :
    ∃ last, Settled tag last ∧
      Advances {} (reader.atStart start) blanks {} (reader.atStart last) := by
  by_cases hempty : blanks = []
  · subst hempty
    exact ⟨start, hstart, .refl _ _⟩
  · exact ⟨_, .inside tag, advances_toInside hstart hblanks hempty⟩

theorem advances_tagMark (hstart : Settled tag start)
    (hnodup : (tag.ordinary.map Attribute.name).Nodup) (closed : Bool) :
    Advances {} (reader.atStart start) (if closed then Token.emptyTagEnd else .tagEnd).chars {}
      { reader with nesting := reader.nesting.start tag closed, place := .content } := by
  have hend : (reader.atStart start).Steps (if closed then .emptyTagEnd else .tagEnd)
      { reader with nesting := reader.nesting.start tag closed, place := .content } :=
    steps_finish (hstart.accept?_end hnodup closed)
  cases closed with
  | true => exact .cons rfl (.nil _) (.cons rfl (.single hend) (.refl _ _))
  | false => exact .cons rfl (.single hend) (.refl _ _)

theorem advances_tag {written : List Char} (hwritten : IsTag reader.version written tag)
    (closed : Bool) :
    Advances {} (reader.atStart (.tagName []))
      (written ++ (if closed then Token.emptyTagEnd else .tagEnd).chars) {}
      { reader with nesting := reader.nesting.start tag closed, place := .content } := by
  obtain ⟨hname, hattributes, hnodup, hblanks⟩ := hwritten
  have hread : Advances {} (reader.atStart (.tagName [])) tag.name.chars {}
      (reader.atStart (.tagName tag.name.chars.reverse)) :=
    advances_name hname (follows_tagName hname)
  obtain ⟨start, hstart, hmore⟩ := advances_attributes hattributes (.named hname)
  obtain ⟨last, hlast, hrest⟩ := advances_tagBlanks hstart hblanks
  exact ((hread.append hmore).append hrest).append (advances_tagMark hlast hnodup closed)

end Reader

end PanelRelay.Xml
