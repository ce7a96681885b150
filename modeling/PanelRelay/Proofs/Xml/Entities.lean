import PanelRelay.Proofs.Xml.Following

/-!
Entities that a document declares. A stretch that is read without any of them is read in the same way
where some are declared, for only a reference by name looks them up.
-/

namespace PanelRelay.Xml

theorem Doctype.acceptParameter?_of_nil {name : List Char} {more replace : List Char → Step}
    {token : Token} {step : Step} (h : acceptParameter? [] name more replace token = some step)
    (entities : Entities) : acceptParameter? entities name more replace token = some step := by
  unfold acceptParameter? at h ⊢
  cases token with
  | char c =>
      dsimp only at h ⊢
      split at h
      next => cases h
      next hsemicolon =>
        rw [if_neg hsemicolon]
        exact h
  | _ => cases h

theorem Doctype.accept?_of_nil {version : Version} {place : Doctype} {token : Token} {step : Step}
    (h : place.accept? version [] token = some step) (entities : Entities) :
    place.accept? version entities token = some step := by
  unfold Doctype.accept? at h ⊢
  cases place with
  | inParameter name => exact acceptParameter?_of_nil h entities
  | inValueParameter value name => exact acceptParameter?_of_nil h entities
  | _ => exact h

namespace Reader

/-- A step that neither looks entities up nor declares any. -/
def SparesEntities (step : Reader → Option Reader) : Prop :=
  ∀ reader entities,
    step { reader with entities } = (step reader).map fun next => { next with entities }

theorem SparesEntities.entities_eq {step : Reader → Option Reader} (h : SparesEntities step)
    {reader next : Reader} (hnext : step reader = some next) : next.entities = reader.entities := by
  have hsame := h reader reader.entities
  rw [hnext, Option.map_some] at hsame
  have heq : next = { next with entities := reader.entities } := Option.some.inj hsame
  rw [heq]

theorem foldl_push_withEntities (reader : Reader) (entities : Entities) (text : List Char) :
    text.foldl push { reader with entities } = { text.foldl push reader with entities } := by
  induction text generalizing reader with
  | nil => rfl
  | cons c text ih => exact ih (reader.push c)

theorem sparesEntities_acceptContent? (token : Token) :
    SparesEntities fun reader => reader.acceptContent? token := by
  intro reader entities
  unfold acceptContent?
  cases token with
  | char c =>
      dsimp only
      split
      next => split <;> rfl
      next => split <;> rfl
  | tagStart | commentStart | instructionStart | cdataEnd | declarationStart => rfl
  | endTagStart | cdataStart | doctypeStart | ampersand =>
      dsimp only
      split <;> rfl
  | _ =>
      dsimp only
      rw [foldl_push_withEntities]
      split <;> rfl

theorem sparesEntities_acceptStartTag? (start : StartTag) (token : Token) :
    SparesEntities fun reader => reader.acceptStartTag? start token := by
  intro reader entities
  unfold acceptStartTag?
  dsimp only
  cases start.accept? reader.version token with
  | none => rfl
  | some step => cases step <;> rfl

theorem sparesEntities_finishElement? (name : Name) :
    SparesEntities fun reader => reader.finishElement? name := by
  intro reader entities
  unfold finishElement?
  dsimp only
  cases reader.nesting.finish? name <;> rfl

theorem sparesEntities_acceptEndName? (name : List Char) (token : Token) :
    SparesEntities fun reader => reader.acceptEndName? name token := by
  intro reader entities
  unfold acceptEndName?
  cases token with
  | char c =>
      dsimp only
      split
      next => cases Name.ofChars? name.reverse <;> rfl
      next => cases extendName? name c <;> rfl
  | tagEnd =>
      cases Name.ofChars? name.reverse with
      | none => rfl
      | some name => exact sparesEntities_finishElement? name reader entities
  | _ => rfl

theorem sparesEntities_acceptEndTag? (name : Name) (token : Token) :
    SparesEntities fun reader => reader.acceptEndTag? name token := by
  intro reader entities
  unfold acceptEndTag?
  cases token with
  | char c =>
      dsimp only
      split <;> rfl
  | tagEnd => exact sparesEntities_finishElement? name reader entities
  | _ => rfl

theorem sparesEntities_acceptComment? (content : List Char) (token : Token) :
    SparesEntities fun reader => reader.acceptComment? content token := by
  intro reader entities
  unfold acceptComment?
  cases token with
  | char c =>
      dsimp only
      split <;> rfl
  | _ => rfl

theorem sparesEntities_acceptCdata? (content : List Char) (token : Token) :
    SparesEntities fun reader => reader.acceptCdata? content token := by
  intro reader entities
  unfold acceptCdata?
  cases token with
  | char c =>
      dsimp only
      split <;> rfl
  | _ => rfl

theorem sparesEntities_acceptTarget? (name : List Char) (token : Token) :
    SparesEntities fun reader => reader.acceptTarget? name token := by
  intro reader entities
  unfold acceptTarget?
  cases token with
  | char c =>
      dsimp only
      split
      next => split <;> rfl
      next => cases extendName? name c <;> rfl
  | instructionEnd =>
      dsimp only
      split <;> rfl
  | _ => rfl

theorem sparesEntities_acceptData? (target : String) (content : List Char) (token : Token) :
    SparesEntities fun reader => reader.acceptData? target content token := by
  intro reader entities
  unfold acceptData?
  cases token with
  | char c =>
      dsimp only
      split <;> rfl
  | _ => rfl

/-- A step from a reader without entities to another, which is the same where some are declared. -/
structure StepsWithout (reader : Reader) (token : Token) (next : Reader) (text : List Char) :
    Prop where
  entities_eq : reader.entities = []
  accept?_eq : ∀ entities,
    { reader with entities }.accept? token = some ({ next with entities }, text)

variable {reader next : Reader} {token : Token} {text : List Char}

theorem SparesEntities.stepsWithout {step : Reader → Option Reader} (h : SparesEntities step)
    (haccept : ∀ entities, { reader with entities }.accept? token =
      (step { reader with entities }).map (·, []))
    (hnext : reader.accept? token = some (next, text)) (hentities : next.entities = []) :
    StepsWithout reader token next text := by
  have hstep : (step reader).map (·, []) = some (next, text) :=
    (haccept reader.entities).symm.trans hnext
  obtain ⟨found, hfound, heq⟩ := Option.map_eq_some_iff.mp hstep
  obtain ⟨rfl, rfl⟩ := Prod.mk.inj heq
  refine ⟨(h.entities_eq hfound).symm.trans hentities, fun entities => ?_⟩
  rw [haccept, h reader entities, hfound]
  rfl

theorem stepsWithout_of_reference {reference : List Char} (hplace : reader.place = .reference reference)
    (hnext : reader.accept? token = some (next, text)) (hentities : next.entities = []) :
    StepsWithout reader token next text := by
  have haccept : ∀ entities, { reader with entities }.accept? token =
      { reader with entities }.acceptReference? reference token := by
    intro entities
    unfold accept?
    rw [hplace]
  have hstep := (haccept reader.entities).symm.trans hnext
  unfold acceptReference? at haccept hstep
  cases token with
  | char c =>
      obtain ⟨longer, hlonger, heq⟩ := Option.map_eq_some_iff.mp hstep
      obtain ⟨rfl, rfl⟩ := Prod.mk.inj heq
      refine ⟨hentities, fun entities => (haccept entities).trans ?_⟩
      dsimp only
      rw [hlonger]
      rfl
  | semicolon =>
      dsimp only at haccept hstep
      split at hstep
      next c hchar =>
        obtain ⟨rfl, rfl⟩ := Prod.mk.inj (Option.some.inj hstep)
        refine ⟨hentities, fun entities => (haccept entities).trans ?_⟩
        rw [hchar]
        rfl
      next name _ =>
        obtain ⟨inserted, hfound, heq⟩ := Option.map_eq_some_iff.mp hstep
        obtain ⟨rfl, rfl⟩ := Prod.mk.inj heq
        have hnone : reader.entities = [] := hentities
        rw [hnone] at hfound
        cases hfound
      next => cases hstep
  | _ => cases hstep

theorem stepsWithout_of_valueReference {value : OpenValue} {reference : List Char}
    (hplace : reader.place = .valueReference value reference)
    (hnext : reader.accept? token = some (next, text)) (hentities : next.entities = []) :
    StepsWithout reader token next text := by
  have haccept : ∀ entities, { reader with entities }.accept? token =
      ({ reader with entities }.acceptValueReference? value reference token).map (·, []) := by
    intro entities
    unfold accept?
    rw [hplace]
  have hstep := (haccept reader.entities).symm.trans hnext
  obtain ⟨found, hfound, heq⟩ := Option.map_eq_some_iff.mp hstep
  obtain ⟨rfl, rfl⟩ := Prod.mk.inj heq
  unfold acceptValueReference? at haccept hfound
  cases token with
  | char c =>
      obtain ⟨longer, hlonger, rfl⟩ := Option.map_eq_some_iff.mp hfound
      refine ⟨hentities, fun entities => (haccept entities).trans ?_⟩
      dsimp only
      rw [hlonger]
      rfl
  | semicolon =>
      dsimp only at haccept hfound
      split at hfound
      next c hchar =>
        obtain rfl := Option.some.inj hfound
        refine ⟨hentities, fun entities => (haccept entities).trans ?_⟩
        rw [hchar]
        rfl
      next name _ =>
        obtain ⟨inserted, hlookup, rfl⟩ := Option.map_eq_some_iff.mp hfound
        have hnone : reader.entities = [] := hentities
        rw [hnone] at hlookup
        cases hlookup
      next => cases hfound
  | _ => cases hfound

theorem stepsWithout_of_doctype {place : Doctype} (hplace : reader.place = .doctype place)
    (hnext : reader.accept? token = some (next, text)) (hentities : next.entities = []) :
    StepsWithout reader token next text := by
  have haccept : ∀ entities, { reader with entities }.accept? token =
      { reader with entities }.acceptDoctype? place token := by
    intro entities
    unfold accept?
    rw [hplace]
  have hstep := (haccept reader.entities).symm.trans hnext
  unfold acceptDoctype? at haccept hstep
  obtain ⟨found, hfound, heq⟩ := Option.map_eq_some_iff.mp hstep
  have hnone : reader.entities = [] := by
    cases found with
    | declare name declared =>
        obtain ⟨rfl, -⟩ := Prod.mk.inj heq
        exact absurd hentities (by simp)
    | _ =>
        obtain ⟨rfl, -⟩ := Prod.mk.inj heq
        exact hentities
  refine ⟨hnone, fun entities => (haccept entities).trans ?_⟩
  have hsame : place.accept? reader.version reader.entities token = some found := hfound
  rw [hnone] at hsame
  dsimp only
  rw [Doctype.accept?_of_nil hsame entities, Option.map_some]
  cases found with
  | declare name declared =>
      obtain ⟨rfl, -⟩ := Prod.mk.inj heq
      exact absurd hentities (by simp)
  | _ =>
      obtain ⟨rfl, rfl⟩ := Prod.mk.inj heq
      rfl

theorem stepsWithout (hnext : reader.accept? token = some (next, text))
    (hentities : next.entities = []) : StepsWithout reader token next text := by
  cases hplace : reader.place with
  | content =>
      refine (sparesEntities_acceptContent? token).stepsWithout (fun entities => ?_) hnext hentities
      rw [accept?, hplace]
  | startTag start =>
      refine (sparesEntities_acceptStartTag? start token).stepsWithout (fun entities => ?_) hnext
        hentities
      rw [accept?, hplace]
  | endName name =>
      refine (sparesEntities_acceptEndName? name token).stepsWithout (fun entities => ?_) hnext
        hentities
      rw [accept?, hplace]
  | endTag name =>
      refine (sparesEntities_acceptEndTag? name token).stepsWithout (fun entities => ?_) hnext
        hentities
      rw [accept?, hplace]
  | comment content =>
      refine (sparesEntities_acceptComment? content token).stepsWithout (fun entities => ?_) hnext
        hentities
      rw [accept?, hplace]
  | cdata content =>
      refine (sparesEntities_acceptCdata? content token).stepsWithout (fun entities => ?_) hnext
        hentities
      rw [accept?, hplace]
  | target name =>
      refine (sparesEntities_acceptTarget? name token).stepsWithout (fun entities => ?_) hnext
        hentities
      rw [accept?, hplace]
  | data target content =>
      refine (sparesEntities_acceptData? target content token).stepsWithout (fun entities => ?_) hnext
        hentities
      rw [accept?, hplace]
  | reference reference => exact stepsWithout_of_reference hplace hnext hentities
  | valueReference value reference => exact stepsWithout_of_valueReference hplace hnext hentities
  | doctype place => exact stepsWithout_of_doctype hplace hnext hentities

theorem Steps.withEntities (h : reader.Steps token next) (hentities : next.entities = [])
    (entities : Entities) :
    reader.entities = [] ∧ { reader with entities }.Steps token { next with entities } := by
  refine ⟨(stepsWithout (h {}) hentities).entities_eq, fun lexer => ?_⟩
  exact (stepsWithout (h lexer) hentities).accept?_eq entities

theorem Follows.withEntities {tokens : List Token} (h : Follows reader tokens next)
    (hentities : next.entities = []) (entities : Entities) :
    reader.entities = [] ∧ Follows { reader with entities } tokens { next with entities } := by
  induction h with
  | nil reader => exact ⟨hentities, .nil _⟩
  | cons hstep _ ih =>
      obtain ⟨hbetween, hrest⟩ := ih hentities
      obtain ⟨hfirst, hstep⟩ := hstep.withEntities hbetween entities
      exact ⟨hfirst, .cons hstep hrest⟩

theorem Advances.withEntities {lexer later : Lexer} (h : Advances lexer reader text later next)
    (hentities : next.entities = []) (entities : Entities) :
    Advances lexer { reader with entities } text later { next with entities } := by
  obtain ⟨tokens, hscan, hfollows⟩ := h
  exact ⟨tokens, hscan, (hfollows.withEntities hentities entities).2⟩

end Reader

end PanelRelay.Xml
