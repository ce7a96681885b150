import PanelRelay.Xml.Reader

/-!
Names as they are read have no colon but the one behind the qualifier, so that the base of an
attribute's name never has one. This holds at every stage of a start tag.
-/

namespace PanelRelay.Xml

def Name.IsLocal (name : Name) : Prop :=
  ':' ∉ name.base.toList

theorem Name.isLocal_of_ofChars? {chars : List Char} {name : Name} (h : ofChars? chars = some name) :
    name.IsLocal := by
  have hfirst : ':' ∉ chars.takeWhile (· ≠ ':') := by
    intro hmem
    simpa using List.all_eq_true.mp List.all_takeWhile ':' hmem
  unfold ofChars? at h
  dsimp only at h
  split at h
  next =>
    obtain ⟨-, rfl⟩ := Option.ite_none_left_eq_some.mp h |>.imp_right Option.some.inj
    rw [IsLocal, plain, String.toList_ofList]
    exact hfirst
  next second _ =>
    obtain ⟨hparts, hname⟩ := Option.ite_none_left_eq_some.mp h
    obtain rfl := Option.some.inj hname
    rw [IsLocal, qualified, String.toList_ofList]
    exact fun hmem => hparts (.inr (.inr hmem))

/-- A tag in which no attribute has a colon in the base of its name. -/
def Tag.HasLocalNames (tag : Tag) : Prop :=
  ∀ item ∈ tag.attributes, item.name.IsLocal

theorem Tag.hasLocalNames_of_name (name : Name) : HasLocalNames { name } :=
  nofun

structure OpenValue.HasLocalNames (value : OpenValue) : Prop where
  tag : value.tag.HasLocalNames
  name : value.name.IsLocal

theorem OpenValue.HasLocalNames.append {value : OpenValue} (h : value.HasLocalNames)
    (text : List Char) : (value.append text).HasLocalNames :=
  ⟨h.tag, h.name⟩

theorem OpenValue.HasLocalNames.close {value : OpenValue} (h : value.HasLocalNames) :
    value.close.HasLocalNames :=
  List.forall_mem_append.mpr ⟨h.tag, List.forall_mem_singleton.mpr h.name⟩

namespace StartTag

def HasLocalNames : StartTag → Prop
  | .tagName _ => True
  | .inside tag => tag.HasLocalNames
  | .attributeName tag _ => tag.HasLocalNames
  | .beforeEquals tag name => tag.HasLocalNames ∧ name.IsLocal
  | .beforeValue tag name => tag.HasLocalNames ∧ name.IsLocal
  | .inValue value => value.HasLocalNames
  | .afterValue tag => tag.HasLocalNames

def Step.HasLocalNames : Step → Prop
  | .more start => start.HasLocalNames
  | .reference value => value.HasLocalNames
  | .finish tag _ => tag.HasLocalNames

variable {version : Version} {start : StartTag} {tag : Tag} {token : Token} {step : Step}

theorem Step.hasLocalNames_of_finish? (h : tag.HasLocalNames) {closed : Bool}
    (hstep : finish? tag closed = some step) : step.HasLocalNames := by
  obtain ⟨-, hstep⟩ := Option.ite_none_right_eq_some.mp hstep
  obtain rfl := Option.some.inj hstep
  exact h

theorem Step.hasLocalNames_of_acceptTagName? {name : List Char}
    (hstep : acceptTagName? name token = some step) : step.HasLocalNames := by
  unfold acceptTagName? at hstep
  cases token with
  | char c =>
      dsimp only at hstep
      split at hstep
      next =>
        obtain ⟨name, -, rfl⟩ := Option.map_eq_some_iff.mp hstep
        exact Tag.hasLocalNames_of_name name
      next =>
        obtain ⟨name, -, rfl⟩ := Option.map_eq_some_iff.mp hstep
        exact trivial
  | tagEnd | emptyTagEnd =>
      obtain ⟨name, -, hstep⟩ := Option.bind_eq_some_iff.mp hstep
      exact Step.hasLocalNames_of_finish? (Tag.hasLocalNames_of_name name) hstep
  | _ => cases hstep

theorem Step.hasLocalNames_of_acceptInside? (h : tag.HasLocalNames)
    (hstep : acceptInside? tag token = some step) : step.HasLocalNames := by
  unfold acceptInside? at hstep
  cases token with
  | char c =>
      dsimp only at hstep
      split at hstep
      next =>
        obtain rfl := Option.some.inj hstep
        exact h
      next =>
        obtain ⟨name, -, rfl⟩ := Option.map_eq_some_iff.mp hstep
        exact h
  | tagEnd | emptyTagEnd => exact Step.hasLocalNames_of_finish? h hstep
  | _ => cases hstep

theorem Step.hasLocalNames_of_acceptAttributeName? (h : tag.HasLocalNames) {name : List Char}
    (hstep : acceptAttributeName? tag name token = some step) : step.HasLocalNames := by
  unfold acceptAttributeName? at hstep
  cases token with
  | char c =>
      dsimp only at hstep
      split at hstep
      next =>
        obtain ⟨name, hname, rfl⟩ := Option.map_eq_some_iff.mp hstep
        exact ⟨h, Name.isLocal_of_ofChars? hname⟩
      next =>
        obtain ⟨name, -, rfl⟩ := Option.map_eq_some_iff.mp hstep
        exact h
  | equals =>
      obtain ⟨name, hname, rfl⟩ := Option.map_eq_some_iff.mp hstep
      exact ⟨h, Name.isLocal_of_ofChars? hname⟩
  | _ => cases hstep

theorem Step.hasLocalNames_of_acceptValue? {value : OpenValue} (h : value.HasLocalNames)
    (hstep : acceptValue? version value token = some step) : step.HasLocalNames := by
  unfold acceptValue? at hstep
  cases token with
  | char c =>
      obtain ⟨-, hstep⟩ := Option.ite_none_right_eq_some.mp hstep
      obtain rfl := Option.some.inj hstep
      exact h.append [c]
  | quote quote =>
      dsimp only at hstep
      split at hstep
      next =>
        obtain rfl := Option.some.inj hstep
        exact h.close
      next =>
        obtain rfl := Option.some.inj hstep
        exact h.append _
  | ampersand =>
      obtain rfl := Option.some.inj hstep
      exact h
  | tagStart | instructionStart => cases hstep
  | _ =>
      obtain rfl := Option.some.inj hstep
      exact h.append _

theorem HasLocalNames.accept? (h : start.HasLocalNames)
    (hstep : start.accept? version token = some step) : step.HasLocalNames := by
  unfold StartTag.accept? at hstep
  cases start with
  | tagName name => exact Step.hasLocalNames_of_acceptTagName? hstep
  | inside tag => exact Step.hasLocalNames_of_acceptInside? h hstep
  | attributeName tag name => exact Step.hasLocalNames_of_acceptAttributeName? h hstep
  | inValue value => exact Step.hasLocalNames_of_acceptValue? h hstep
  | beforeEquals tag name =>
      cases token with
      | char c =>
          obtain ⟨-, hstep⟩ := Option.ite_none_right_eq_some.mp hstep
          obtain rfl := Option.some.inj hstep
          exact h
      | equals =>
          obtain rfl := Option.some.inj hstep
          exact h
      | _ => cases hstep
  | beforeValue tag name =>
      cases token with
      | char c =>
          obtain ⟨-, hstep⟩ := Option.ite_none_right_eq_some.mp hstep
          obtain rfl := Option.some.inj hstep
          exact h
      | quote quote =>
          obtain rfl := Option.some.inj hstep
          exact ⟨h.1, h.2⟩
      | _ => cases hstep
  | afterValue tag =>
      cases token with
      | char c =>
          obtain ⟨-, hstep⟩ := Option.ite_none_right_eq_some.mp hstep
          obtain rfl := Option.some.inj hstep
          exact h
      | tagEnd | emptyTagEnd => exact Step.hasLocalNames_of_finish? h hstep
      | _ => cases hstep

end StartTag

def Place.HasLocalNames : Place → Prop
  | .startTag start => start.HasLocalNames
  | .valueReference value _ => value.HasLocalNames
  | _ => True

end PanelRelay.Xml
