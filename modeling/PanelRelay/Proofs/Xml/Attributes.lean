import PanelRelay.Proofs.Xml.Alongside
import PanelRelay.Proofs.Xml.Markup

/-!
Start tags in documents that declare entities. The value of an attribute may refer to these, and their
text is taken over as it is; all else is as in the tags that are spelled out.
-/

namespace PanelRelay.Xml

/-- What stands between two quotes, and the value that it spells. -/
inductive IsValue (version : Version) (entities : Entities) (quote : Quote) :
    List Char → List Char → Prop
  | spelled {written text : List Char}
      (hwritten : IsSpelled version ['<', '&', quote.char] written text) :
      IsValue version entities quote written text
  | entity {written front body text rest behind : List Char} {name : String}
      (hwritten : IsSpelled version ['<', '&', quote.char] written front)
      (hbody : Reference.ofText? version body = some (.entity name))
      (htext : entities.lookup name = some text)
      (hrest : IsValue version entities quote rest behind) :
      IsValue version entities quote (written ++ '&' :: (body ++ ';' :: rest))
        (front ++ text ++ behind)

inductive AreAttributes (version : Version) (entities : Entities) :
    List Char → List Attribute → Prop
  | nil : AreAttributes version entities [] []
  | cons {blanks before behind written rest : List Char} {quote : Quote} {item : Attribute}
      {items : List Attribute} (hblanks : AreBlanks blanks) (hnonempty : blanks ≠ [])
      (hname : item.name.IsValid) (hbefore : AreBlanks before) (hbehind : AreBlanks behind)
      (hvalue : IsValue version entities quote written item.value.toList)
      (hrest : AreAttributes version entities rest items) :
      AreAttributes version entities
        (blanks ++ item.name.chars ++ before ++ '=' :: behind ++ quote.char :: written ++
          quote.char :: rest)
        (item :: items)

/-- A start tag without the marks around it. -/
inductive IsStartTag (version : Version) (entities : Entities) : List Char → Tag → Prop
  | intro {attributes blanks : List Char} {tag : Tag} (hname : tag.name.IsValid)
      (hattributes : AreAttributes version entities attributes tag.attributes)
      (hblanks : AreBlanks blanks) :
      IsStartTag version entities (tag.name.chars ++ attributes ++ blanks) tag

theorem IsAttributes.areAttributes {version : Version} (entities : Entities) {written : List Char}
    {items : List Attribute} (h : IsAttributes version written items) :
    AreAttributes version entities written items := by
  induction h with
  | nil => exact .nil
  | cons hblanks hnonempty hname hbefore hbehind hvalue _ ih =>
      exact .cons hblanks hnonempty hname hbefore hbehind (.spelled hvalue) ih

/-- What is spelled out does not depend on the entities. -/
theorem IsTag.isStartTag {version : Version} (entities : Entities) {written : List Char} {tag : Tag}
    (h : IsTag version written tag) : IsStartTag version entities written tag := by
  obtain ⟨hname, hattributes, -, hblanks⟩ := h
  exact .intro hname (hattributes.areAttributes entities) hblanks

theorem AreAttributes.isValid_name {version : Version} {entities : Entities} {written : List Char}
    {items : List Attribute} (h : AreAttributes version entities written items) :
    ∀ item ∈ items, item.name.IsValid := by
  induction h with
  | nil => exact List.forall_mem_nil _
  | cons _ _ hname _ _ _ _ ih => exact List.forall_mem_cons.mpr ⟨hname, ih⟩

theorem IsStartTag.hasLocalNames {version : Version} {entities : Entities} {written : List Char}
    {tag : Tag} (h : IsStartTag version entities written tag) : tag.HasLocalNames := by
  obtain ⟨-, hattributes, -⟩ := h
  exact fun item hitem => Name.isLocal_of_ofChars? (hattributes.isValid_name item hitem).ofChars?

namespace Reader

open StartTag (Settled)

variable {reader : Reader} {tag : Tag} {start : StartTag}

/-- The reference to an entity in a value, behind its ampersand. -/
theorem advances_entity {value : OpenValue} {body text : List Char} {name : String}
    (hbody : Reference.ofText? reader.version body = some (.entity name))
    (htext : reader.entities.lookup name = some text) :
    Advances {} (reader.enter (.valueReference value [])) (body ++ [';']) {}
      (reader.atStart (.inValue (value.append text))) := by
  obtain ⟨run, hrun, hentity⟩ := Option.bind_eq_some_iff.mp hbody
  have hclose : (reader.enter (.valueReference value run)).Steps (Token.ofChar ';')
      (reader.atStart (.inValue (value.append text))) := by
    intro lexer
    unfold accept? acceptValueReference?
    simp only [Token.ofChar, atStart, enter, hentity, htext, Option.map_some]
  have hopen : Follows (reader.enter (.valueReference value [])) (body.map Token.char)
      (reader.enter (.valueReference value run)) := by
    refine follows_chars (.valueReference value) ?_ hrun
    intro run c longer hextend lexer
    unfold accept? acceptValueReference?
    simp only [enter, hextend, Option.map_some]
  rw [← Reference.map_ofChar_body hbody] at hopen
  have hsemicolon : Lexer.IsSettled ';' := ⟨by decide, by decide, by decide, by decide⟩
  exact (advances_settled (Reference.isSettled_of_mem_body hbody) hopen).append
    (advances_char hsemicolon hclose)

theorem steps_closingQuote (value : OpenValue) :
    (reader.atStart (.inValue value)).Steps (.quote value.quote)
      (reader.atStart (.afterValue value.close)) := by
  apply steps_more
  unfold StartTag.accept? StartTag.acceptValue?
  exact if_pos rfl

theorem steps_ampersand (value : OpenValue) :
    (reader.atStart (.inValue value)).Steps .ampersand
      (reader.enter (.valueReference value [])) :=
  fun _ => rfl

/-- A value is read to its closing quote, by induction on the references to entities in it. -/
theorem advances_valueEnd {quote : Quote} {written text : List Char}
    (h : IsValue reader.version reader.entities quote written text) {value : OpenValue}
    (hquote : value.quote = quote) :
    Advances {} (reader.atStart (.inValue value)) (written ++ [quote.char]) {}
      (reader.atStart (.afterValue (value.append text).close)) := by
  induction h generalizing value with
  | @spelled written text hwritten =>
      subst hquote
      have hmark : Lexer.IsSettled value.quote.char ∧
          Token.ofChar value.quote.char = .quote value.quote := by
        cases value.quote <;> exact ⟨⟨by decide, by decide, by decide, by decide⟩, rfl⟩
      have hclose : (reader.atStart (.inValue (value.append text))).Steps
          (Token.ofChar value.quote.char)
          (reader.atStart (.afterValue (value.append text).close)) := by
        rw [hmark.2]
        exact steps_closingQuote (value.append text)
      exact (absorbs_value reader value).advances_settled hwritten nofun [] hmark.1 hclose
  | @entity written front body replacement rest behind name hwritten hbody htext hrest ih =>
      subst hquote
      have hampersand : Lexer.IsSettled '&' := ⟨by decide, by decide, by decide, by decide⟩
      have hfront : Advances {} (reader.atStart (.inValue value)) (written ++ ['&']) {}
          (reader.enter (.valueReference (value.append front) [])) :=
        (absorbs_value reader value).advances_settled hwritten nofun [] hampersand
          (steps_ampersand (value.append front))
      have hentity : Advances {} (reader.enter (.valueReference (value.append front) []))
          (body ++ [';']) {}
          (reader.atStart (.inValue (value.append (front ++ replacement)))) := by
        rw [← OpenValue.append_append]
        exact advances_entity hbody htext
      have hbehind := @ih (value.append (front ++ replacement)) rfl
      rw [OpenValue.append_append] at hbehind
      have hsplit : written ++ '&' :: (body ++ ';' :: rest) ++ [value.quote.char] =
          written ++ ['&'] ++ (body ++ [';'] ++ (rest ++ [value.quote.char])) := by simp
      rw [hsplit]
      exact hfront.append (hentity.append hbehind)

theorem advances_attribute {item : Attribute} {quote : Quote} {written : List Char}
    (hvalue : IsValue reader.version reader.entities quote written item.value.toList) :
    Advances {} (reader.atStart (.beforeValue tag item.name))
      (quote.char :: written ++ [quote.char]) {}
      (reader.atStart (.afterValue { tag with attributes := tag.attributes ++ [item] })) := by
  have hmark : Lexer.IsSettled quote.char ∧ Token.ofChar quote.char = .quote quote := by
    cases quote <;> exact ⟨⟨by decide, by decide, by decide, by decide⟩, rfl⟩
  have hopen : Advances {} (reader.atStart (.beforeValue tag item.name)) [quote.char] {}
      (reader.atStart (.inValue { tag, name := item.name, quote })) :=
    advances_char hmark.1 (hmark.2 ▸ steps_more rfl)
  have hclose : OpenValue.close (OpenValue.append { tag, name := item.name, quote }
      item.value.toList) = { tag with attributes := tag.attributes ++ [item] } := by
    simp [OpenValue.append, OpenValue.close]
  have hread : Advances {} (reader.atStart (.inValue { tag, name := item.name, quote }))
      (written ++ [quote.char]) {}
      (reader.atStart (.afterValue { tag with attributes := tag.attributes ++ [item] })) := by
    rw [← hclose]
    exact advances_valueEnd hvalue rfl
  exact hopen.append hread

theorem advances_items {items : List Attribute} {written : List Char}
    (h : AreAttributes reader.version reader.entities written items) (hstart : Settled tag start) :
    ∃ last, Settled { tag with attributes := tag.attributes ++ items } last ∧
      Advances {} (reader.atStart start) written {} (reader.atStart last) := by
  induction h generalizing tag start with
  | nil => exact ⟨start, by simpa using hstart, .refl _ _⟩
  | @cons blanks before behind written rest quote item items hblanks hnonempty hname hbefore
      hbehind hvalue hrest ih =>
      obtain ⟨last, hlast, hmore⟩ := ih (.after { tag with attributes := tag.attributes ++ [item] })
      refine ⟨last, by simpa using hlast, ?_⟩
      have hsplit : blanks ++ item.name.chars ++ before ++ '=' :: behind ++ quote.char :: written ++
          quote.char :: rest = blanks ++ ((item.name.chars ++ before ++ '=' :: behind) ++
            ((quote.char :: written ++ [quote.char]) ++ rest)) := by simp
      rw [hsplit]
      exact (advances_toInside hstart hblanks hnonempty).append
        ((advances_toValue hname hbefore hbehind).append ((advances_attribute hvalue).append hmore))

/-- A reader of content at a start tag, with the text before it added. -/
def beforeStart (reader : Reader) : Reader :=
  { reader.flush with admitsDoctype := false }

def behindStart (reader : Reader) (tag : Tag) (closed : Bool) : Reader :=
  { reader.beforeStart with
    nesting := reader.beforeStart.nesting.start tag closed, place := .content }

/-- A start tag in content is read from its bracket on, in the order of its attributes. -/
theorem advances_start {written : List Char}
    (h : IsStartTag reader.version reader.entities written tag)
    (hplace : reader.place = .content) (hnodup : (tag.ordinary.map Attribute.name).Nodup)
    (closed : Bool) :
    Advances { mode := .angle } reader
      (written ++ (if closed then Token.emptyTagEnd else .tagEnd).chars) {}
      (reader.behindStart tag closed) := by
  obtain ⟨hname, hattributes, hblanks⟩ := h
  have hbegin : reader.Steps .tagStart (reader.beforeStart.atStart (.tagName [])) :=
    steps_of_place hplace fun lexer => rfl
  have hread : Advances {} (reader.beforeStart.atStart (.tagName [])) tag.name.chars {}
      (reader.beforeStart.atStart (.tagName tag.name.chars.reverse)) :=
    advances_name hname (follows_tagName hname)
  have hitems : AreAttributes reader.beforeStart.version reader.beforeStart.entities _
      tag.attributes := hattributes
  obtain ⟨start, hstart, hmore⟩ := advances_items hitems (.named hname)
  obtain ⟨last, hlast, hrest⟩ := advances_tagBlanks hstart hblanks
  have hmark : Advances {} (reader.beforeStart.atStart last)
      (if closed then Token.emptyTagEnd else .tagEnd).chars {} (reader.behindStart tag closed) :=
    advances_tagMark hlast hnodup closed
  have hall := ((hread.append hmore).append hrest).append hmark
  obtain ⟨tokens, hscan, hfollows⟩ := hall
  obtain ⟨c, rest, hchars, hfirst⟩ := hname.exists_cons
  rw [hchars] at hscan ⊢
  exact ⟨_, Lexer.scanAll?_angle hfirst hscan, .cons hbegin hfollows⟩

end Reader

end PanelRelay.Xml
