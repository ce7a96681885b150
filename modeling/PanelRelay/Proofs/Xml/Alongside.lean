import PanelRelay.Proofs.Xml.LocalNames
import PanelRelay.Xml.Document

/-!
Two readers alongside each other, which differ in what has been built so far. What else a reader does
depends on that only by whether an element is open and by the name of the innermost one, so that a
relation which is kept in building is kept over whole texts.
-/

namespace PanelRelay.Xml

/-- What a relation between trees that are being built has to satisfy to hold all along. -/
structure Nesting.IsKept (R : Nesting → Nesting → Prop) : Prop where
  isOpen : ∀ left right, R left right → left.isOpen = right.isOpen
  note : ∀ left right node, R left right → node.element? = none → R (left.note node) (right.note node)
  start : ∀ left right tag closed, R left right → tag.HasLocalNames →
    R (left.start tag closed) (right.start tag closed)
  finish? : ∀ left right name, R left right →
    Option.Rel R (left.finish? name) (right.finish? name)

section Options

variable {α β γ δ : Type} {r : α → β → Prop} {s : γ → δ → Prop} {left : Option α}
  {right : Option β}

theorem rel_map {f : α → γ} {g : β → δ} (h : Option.Rel r left right)
    (hstep : ∀ a b, r a b → s (f a) (g b)) : Option.Rel s (left.map f) (right.map g) := by
  cases h with
  | none => exact .none
  | some hab => exact .some (hstep _ _ hab)

theorem rel_bind {f : α → Option γ} {g : β → Option δ} (h : Option.Rel r left right)
    (hstep : ∀ a b, r a b → Option.Rel s (f a) (g b)) :
    Option.Rel s (left.bind f) (right.bind g) := by
  cases h with
  | none => exact .none
  | some hab => exact hstep _ _ hab

theorem exists_of_rel_some {a : α} (h : Option.Rel r (some a) right) :
    ∃ b, right = some b ∧ r a b := by
  cases h with
  | some hab => exact ⟨_, rfl, hab⟩

theorem eq_none_of_rel_none (h : Option.Rel r none right) : right = none := by
  cases h with
  | none => rfl

end Options

namespace Reader

/-- Readers that differ in what has been built only, where the relation holds. -/
structure Beside (R : Nesting → Nesting → Prop) (left right : Reader) : Prop where
  eq : right = { left with nesting := right.nesting }
  nesting : R left.nesting right.nesting
  place : left.place.HasLocalNames

/-- The same for two results, behind which the same text is inserted. -/
def Besides (R : Nesting → Nesting → Prop) (left right : Reader × List Char) : Prop :=
  Beside R left.1 right.1 ∧ left.2 = right.2

namespace Beside

variable {R : Nesting → Nesting → Prop} {left right : Reader}

theorem exists_nesting (h : Beside R left right) :
    ∃ nesting, right = { left with nesting } ∧ R left.nesting nesting :=
  ⟨_, h.eq, h.nesting⟩

theorem withLexer (h : Beside R left right) (lexer : Lexer) :
    Beside R { left with lexer } { right with lexer } := by
  obtain ⟨nesting, rfl, hnesting⟩ := h.exists_nesting
  exact ⟨rfl, hnesting, h.place⟩

theorem enter (h : Beside R left right) {place : Place} (hplace : place.HasLocalNames) :
    Beside R (left.enter place) (right.enter place) := by
  obtain ⟨nesting, rfl, hnesting⟩ := h.exists_nesting
  exact ⟨rfl, hnesting, hplace⟩

theorem push (h : Beside R left right) (c : Char) : Beside R (left.push c) (right.push c) := by
  obtain ⟨nesting, rfl, hnesting⟩ := h.exists_nesting
  exact ⟨rfl, hnesting, h.place⟩

theorem foldl_push (h : Beside R left right) (text : List Char) :
    Beside R (text.foldl Reader.push left) (text.foldl Reader.push right) := by
  induction text generalizing left right with
  | nil => exact h
  | cons c text ih => exact ih (h.push c)

variable (hR : Nesting.IsKept R)

include hR

theorem flush (h : Beside R left right) : Beside R left.flush right.flush := by
  obtain ⟨nesting, rfl, hnesting⟩ := h.exists_nesting
  refine ⟨rfl, ?_, h.place⟩
  simp only [Reader.flush]
  split
  next => exact hnesting
  next => exact hR.note _ _ _ hnesting rfl

theorem note (h : Beside R left right) {node : Node} (hnode : node.element? = none) :
    Beside R (left.note node) (right.note node) := by
  obtain ⟨nesting, rfl, hnesting⟩ := h.exists_nesting
  exact ⟨rfl, hR.note _ _ _ hnesting hnode, trivial⟩

theorem acceptContent? (h : Beside R left right) (token : Token) :
    Option.Rel (Beside R) (left.acceptContent? token) (right.acceptContent? token) := by
  have hopen : left.nesting.isOpen = right.nesting.isOpen := hR.isOpen _ _ h.nesting
  have hflushed := h.flush hR
  have hversion : right.version = left.version := by rw [h.eq]
  have hadmits : right.admitsDoctype = left.admitsDoctype := by rw [h.eq]
  unfold Reader.acceptContent?
  rw [hopen, hversion, hadmits]
  cases token with
  | char c =>
      dsimp only
      split
      next =>
        split
        next => exact .some (h.push c)
        next => exact .none
      next =>
        split
        next => exact .some h
        next => exact .none
  | tagStart =>
      obtain ⟨nesting, hright, hnesting⟩ := hflushed.exists_nesting
      dsimp only
      rw [hright]
      exact .some ⟨rfl, hnesting, trivial⟩
  | doctypeStart =>
      obtain ⟨nesting, hright, hnesting⟩ := hflushed.exists_nesting
      dsimp only
      rw [hright]
      split
      next => exact .some ⟨rfl, hnesting, trivial⟩
      next => exact .none
  | commentStart | instructionStart => exact .some (hflushed.enter trivial)
  | endTagStart | cdataStart =>
      dsimp only
      split
      next => exact .some (hflushed.enter trivial)
      next => exact .none
  | ampersand =>
      dsimp only
      split
      next => exact .some (h.enter trivial)
      next => exact .none
  | cdataEnd | declarationStart => exact .none
  | _ =>
      dsimp only
      split
      next => exact .some (h.foldl_push _)
      next => exact .none

theorem acceptStartTag? (h : Beside R left right) {start : StartTag}
    (hstart : start.HasLocalNames) (token : Token) :
    Option.Rel (Beside R) (left.acceptStartTag? start token) (right.acceptStartTag? start token) := by
  have hversion : right.version = left.version := by rw [h.eq]
  unfold Reader.acceptStartTag?
  rw [hversion]
  cases hstep : start.accept? left.version token with
  | none => exact .none
  | some step =>
      have hlocal := hstart.accept? hstep
      refine .some ?_
      cases step with
      | more start => exact h.enter hlocal
      | reference value => exact h.enter hlocal
      | finish tag closed =>
          obtain ⟨nesting, rfl, hnesting⟩ := h.exists_nesting
          exact ⟨rfl, hR.start _ _ tag closed hnesting hlocal, trivial⟩

theorem finishElement? (h : Beside R left right) (name : Name) :
    Option.Rel (Beside R) (left.finishElement? name) (right.finishElement? name) := by
  refine rel_map (hR.finish? _ _ name h.nesting) fun first second hnested => ?_
  obtain ⟨nesting, rfl, -⟩ := h.exists_nesting
  exact ⟨rfl, hnested, trivial⟩

theorem acceptEndName? (h : Beside R left right) (name : List Char) (token : Token) :
    Option.Rel (Beside R) (left.acceptEndName? name token) (right.acceptEndName? name token) := by
  unfold Reader.acceptEndName?
  cases token with
  | char c =>
      dsimp only
      split
      next =>
        cases Name.ofChars? name.reverse with
        | none => exact .none
        | some name => exact .some (h.enter trivial)
      next =>
        cases extendName? name c with
        | none => exact .none
        | some name => exact .some (h.enter trivial)
  | tagEnd =>
      cases Name.ofChars? name.reverse with
      | none => exact .none
      | some name => exact h.finishElement? hR name
  | _ => exact .none

theorem acceptEndTag? (h : Beside R left right) (name : Name) (token : Token) :
    Option.Rel (Beside R) (left.acceptEndTag? name token) (right.acceptEndTag? name token) := by
  unfold Reader.acceptEndTag?
  cases token with
  | char c =>
      dsimp only
      split
      next => exact .some h
      next => exact .none
  | tagEnd => exact h.finishElement? hR name
  | _ => exact .none

omit hR in
theorem acceptReference? (h : Beside R left right) (reference : List Char) (token : Token) :
    Option.Rel (Besides R) (left.acceptReference? reference token)
      (right.acceptReference? reference token) := by
  obtain ⟨nesting, rfl, hnesting⟩ := h.exists_nesting
  unfold Reader.acceptReference?
  cases token with
  | char c =>
      dsimp only
      cases Reference.extend? reference c with
      | none => exact .none
      | some reference => exact .some ⟨h.enter trivial, rfl⟩
  | semicolon =>
      dsimp only
      split
      next c _ => exact .some ⟨(h.push c).enter trivial, rfl⟩
      next name _ =>
        cases left.entities.lookup name with
        | none => exact .none
        | some text => exact .some ⟨⟨rfl, hnesting, trivial⟩, rfl⟩
      next => exact .none
  | _ => exact .none

omit hR in
theorem acceptValueReference? (h : Beside R left right) {value : OpenValue}
    (hvalue : value.HasLocalNames) (reference : List Char) (token : Token) :
    Option.Rel (Beside R) (left.acceptValueReference? value reference token)
      (right.acceptValueReference? value reference token) := by
  obtain ⟨nesting, rfl, hnesting⟩ := h.exists_nesting
  unfold Reader.acceptValueReference?
  cases token with
  | char c =>
      dsimp only
      cases Reference.extend? reference c with
      | none => exact .none
      | some reference => exact .some (h.enter hvalue)
  | semicolon =>
      dsimp only
      split
      next => exact .some (h.enter (hvalue.append _))
      next name _ =>
        cases left.entities.lookup name with
        | none => exact .none
        | some text => exact .some (h.enter (hvalue.append _))
      next => exact .none
  | _ => exact .none

theorem acceptComment? (h : Beside R left right) (content : List Char) (token : Token) :
    Option.Rel (Beside R) (left.acceptComment? content token)
      (right.acceptComment? content token) := by
  have hversion : right.version = left.version := by rw [h.eq]
  unfold Reader.acceptComment?
  rw [hversion]
  cases token with
  | commentEnd => exact .some (h.note hR rfl)
  | char c =>
      dsimp only
      split
      next => exact .some (h.enter trivial)
      next => exact .none
  | _ => exact .none

theorem acceptCdata? (h : Beside R left right) (content : List Char) (token : Token) :
    Option.Rel (Beside R) (left.acceptCdata? content token) (right.acceptCdata? content token) := by
  obtain ⟨nesting, rfl, hnesting⟩ := h.exists_nesting
  unfold Reader.acceptCdata?
  cases token with
  | cdataEnd => exact .some (h.note hR rfl)
  | char c =>
      dsimp only
      split
      next => exact .some ⟨rfl, hnesting, trivial⟩
      next => exact .none
  | _ => exact .none

theorem acceptTarget? (h : Beside R left right) (name : List Char) (token : Token) :
    Option.Rel (Beside R) (left.acceptTarget? name token) (right.acceptTarget? name token) := by
  unfold Reader.acceptTarget?
  cases token with
  | char c =>
      dsimp only
      split
      next =>
        split
        next => exact .none
        next => exact .some (h.enter trivial)
      next =>
        cases extendName? name c with
        | none => exact .none
        | some name => exact .some (h.enter trivial)
  | instructionEnd =>
      dsimp only
      split
      next => exact .none
      next => exact .some (h.note hR rfl)
  | _ => exact .none

theorem acceptData? (h : Beside R left right) (target : String) (content : List Char)
    (token : Token) :
    Option.Rel (Beside R) (left.acceptData? target content token)
      (right.acceptData? target content token) := by
  have hversion : right.version = left.version := by rw [h.eq]
  unfold Reader.acceptData?
  rw [hversion]
  cases token with
  | instructionEnd => exact .some (h.note hR rfl)
  | char c =>
      dsimp only
      split
      next => exact .some (h.enter trivial)
      next => exact .none
  | _ => exact .some (h.enter trivial)

omit hR in
theorem acceptDoctype? (h : Beside R left right) (place : Doctype) (token : Token) :
    Option.Rel (Besides R) (left.acceptDoctype? place token) (right.acceptDoctype? place token) := by
  obtain ⟨nesting, rfl, hnesting⟩ := h.exists_nesting
  unfold Reader.acceptDoctype?
  dsimp only
  cases place.accept? left.version left.entities token with
  | none => exact .none
  | some step =>
      refine .some ?_
      cases step with
      | declare name text => exact ⟨⟨rfl, hnesting, trivial⟩, rfl⟩
      | _ => exact ⟨h.enter trivial, rfl⟩

theorem accept? (h : Beside R left right) (token : Token) :
    Option.Rel (Besides R) (left.accept? token) (right.accept? token) := by
  have hplace : right.place = left.place := by rw [h.eq]
  have hlocal := h.place
  have hbehind : ∀ {first second : Option Reader}, Option.Rel (Beside R) first second →
      Option.Rel (Besides R) (first.map (·, [])) (second.map (·, [])) :=
    fun hrel => rel_map hrel fun _ _ hbeside => ⟨hbeside, rfl⟩
  unfold Reader.accept?
  rw [hplace]
  cases hcase : left.place with
  | content => exact hbehind (h.acceptContent? hR token)
  | startTag start =>
      rw [hcase] at hlocal
      exact hbehind (h.acceptStartTag? hR hlocal token)
  | endName name => exact hbehind (h.acceptEndName? hR name token)
  | endTag name => exact hbehind (h.acceptEndTag? hR name token)
  | reference reference => exact h.acceptReference? reference token
  | valueReference value reference =>
      rw [hcase] at hlocal
      exact hbehind (h.acceptValueReference? hlocal reference token)
  | comment content => exact hbehind (h.acceptComment? hR content token)
  | cdata content => exact hbehind (h.acceptCdata? hR content token)
  | target name => exact hbehind (h.acceptTarget? hR name token)
  | data target content => exact hbehind (h.acceptData? hR target content token)
  | doctype place => exact h.acceptDoctype? place token

theorem acceptAll? (h : Beside R left right) (tokens : List Token) :
    Option.Rel (Besides R) (left.acceptAll? tokens) (right.acceptAll? tokens) := by
  induction tokens generalizing left right with
  | nil => exact .some ⟨h, rfl⟩
  | cons token tokens ih =>
      refine rel_bind (h.accept? hR token) fun first second hbetween => ?_
      obtain ⟨hbeside, htext⟩ := hbetween
      refine rel_bind (ih hbeside) fun third fourth hlast => ?_
      obtain ⟨hlast, hmore⟩ := hlast
      refine .some ⟨hlast, ?_⟩
      rw [htext, hmore]

theorem step? (h : Beside R left right) (c : Char) :
    Option.Rel (Besides R) (left.step? c) (right.step? c) := by
  have hlexer : right.lexer = left.lexer := by rw [h.eq]
  unfold Reader.step?
  rw [hlexer]
  cases left.lexer.scan? c with
  | none => exact .none
  | some scanned => exact (h.withLexer scanned.2).acceptAll? hR scanned.1

theorem exists_step? (h : Beside R left right) {c : Char} {next : Reader} {text : List Char}
    (hstep : left.step? c = some (next, text)) :
    ∃ other, right.step? c = some (other, text) ∧ Beside R next other := by
  have hright := h.step? hR c
  rw [hstep] at hright
  obtain ⟨⟨other, text⟩, hother, hnext, rfl⟩ := exists_of_rel_some hright
  exact ⟨other, hother, hnext⟩

theorem drain? (h : Beside R left right) (budget : Nat) (text : List Char) :
    Option.Rel (Beside R) (left.drain? budget text) (right.drain? budget text) := by
  fun_induction Reader.drain? left budget text generalizing right with
  | case1 =>
      rw [Reader.drain?]
      exact .some h
  | case2 reader budget c rest hstep =>
      have hright := h.step? hR c
      rw [hstep] at hright
      rw [Reader.drain?, eq_none_of_rel_none hright]
      exact .none
  | case3 reader budget c rest next hstep ih =>
      obtain ⟨other, hother, hnext⟩ := h.exists_step? hR hstep
      rw [Reader.drain?, hother]
      exact ih hnext
  | case4 reader budget c rest next d inserted hstep hpending =>
      obtain ⟨other, hother, -⟩ := h.exists_step? hR hstep
      rw [Reader.drain?, hother]
      simp only [if_pos hpending]
      exact .none
  | case5 reader c rest next d inserted hstep hpending =>
      obtain ⟨other, hother, -⟩ := h.exists_step? hR hstep
      rw [Reader.drain?, hother]
      simp only [if_neg hpending]
      exact .none
  | case6 reader c rest next d inserted hstep hpending budget ih =>
      obtain ⟨other, hother, hnext⟩ := h.exists_step? hR hstep
      rw [Reader.drain?, hother]
      simp only [if_neg hpending]
      exact ih hnext

theorem readAll? (h : Beside R left right) (text : List Char) :
    Option.Rel (Beside R) (left.readAll? text) (right.readAll? text) := by
  induction text generalizing left right with
  | nil => exact .some h
  | cons c text ih =>
      rw [readAll?_cons, readAll?_cons]
      exact rel_bind (h.drain? hR maxExpansions [c]) fun _ _ hnext => ih hnext

omit hR in
theorem roots? {Q : List Element → List Element → Prop} (h : Beside R left right)
    (hcomplete : ∀ first second, R first second →
      Option.Rel Q first.complete? second.complete?) :
    Option.Rel Q left.roots? right.roots? := by
  obtain ⟨nesting, rfl, hnesting⟩ := h.exists_nesting
  unfold Reader.roots?
  dsimp only
  cases left.place with
  | content =>
      dsimp only
      split
      next => exact hcomplete _ _ hnesting
      next => exact .none
  | _ => exact .none

end Beside

theorem readAll?_append (reader : Reader) (text rest : List Char) :
    reader.readAll? (text ++ rest) = (reader.readAll? text).bind fun next => next.readAll? rest :=
  List.foldlM_append

end Reader

section Documents

variable {R : Nesting → Nesting → Prop} {Q : List Element → List Element → Prop}
  {version : Version} {text text' : List Char}
  (hcomplete : ∀ first second, R first second → Option.Rel Q first.complete? second.complete?)
  (hbound : ∀ roots others, Q roots others →
    roots.all Element.isBound = others.all Element.isBound)
  (hread : Option.Rel (Reader.Beside R)
    (Reader.readAll? { version } text) (Reader.readAll? { version } text'))

include hcomplete hbound hread

/-- Two texts whose readers end up beside each other have related roots, or are both refused. -/
theorem rel_roots? : Option.Rel Q (roots? version text) (roots? version text') := by
  refine rel_bind hread fun first second hbeside => ?_
  refine rel_bind (hbeside.roots? hcomplete) fun roots others hroots => ?_
  rw [hbound roots others hroots]
  split
  next => exact .some hroots
  next => exact .none

theorem rel_parse? {S : Element → Element → Prop} {declaration declaration' : Declaration}
    {octets octets' : List UInt8}
    (hhead : ∀ roots others, Q roots others → Option.Rel S roots.head? others.head?)
    (hdeclared : declared? octets = some (declaration, text))
    (hdeclared' : declared? octets' = some (declaration', text'))
    (hversion : declaration.version = version) (hversion' : declaration'.version = version) :
    Option.Rel S (Element.parse? octets) (Element.parse? octets') := by
  rw [Element.parse?, Element.parse?, hdeclared, hdeclared']
  simp only [Option.bind_eq_bind, Option.bind_some, hversion, hversion']
  exact rel_bind (rel_roots? hcomplete hbound hread) hhead

end Documents

end PanelRelay.Xml
