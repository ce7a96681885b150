import Mathlib.Data.List.Basic
import Mathlib.Data.List.TakeWhile
import PanelRelay.Proofs.Settings.Merging
import PanelRelay.Proofs.Text.Replacement

/-!
The variables of the environment that settings are read from. The name of such a variable has the
prefix of the program, the section and the field, one behind the other; where there are several, the
last one counts.
-/

namespace PanelRelay.Settings

namespace Path

/-- The place of a field in a section. -/
def member (root field : String) : Path where
  root := root
  steps := [.key field]

theorem eq_member_iff {path : Path} {root field : String} :
    path = member root field ↔ path.root = root ∧ path.steps = [.key field] := by
  cases path
  exact Iff.of_eq (Path.mk.injEq _ _ _ _)

def IsName (text : String) : Prop :=
  text.toList ≠ [] ∧ text.toList.all isNameChar = true

instance (text : String) : Decidable (IsName text) :=
  inferInstanceAs (Decidable (_ ∧ _))

namespace IsName

variable {name : String}

theorem isNameChar_of_mem (h : IsName name) : ∀ c ∈ name.toList, isNameChar c = true :=
  List.all_eq_true.mp h.2

theorem takeWhile_eq (h : IsName name) : name.toList.takeWhile isNameChar = name.toList :=
  List.takeWhile_eq_self_iff.mpr h.isNameChar_of_mem

theorem dropWhile_eq (h : IsName name) : name.toList.dropWhile isNameChar = [] :=
  List.dropWhile_eq_nil_iff.mpr h.isNameChar_of_mem

end IsName

section Steps

variable {text : List Char} {steps : List Step}

theorem steps?_nil : steps? [] = some [] := by
  rw [steps?]

theorem steps?_name {name : String} (h : IsName name) :
    steps? ('.' :: name.toList) = some [.key name] := by
  rw [steps?, h.takeWhile_eq, h.dropWhile_eq, if_neg h.1, steps?_nil, String.ofList_toList]
  rfl

theorem exists_of_steps? (h : steps? text = some steps) :
    (text = [] ∧ steps = []) ∨
      (∃ name rest later, text = '.' :: (String.toList name ++ rest) ∧
        steps? rest = some later ∧ steps = .key name :: later) ∨
      ∃ index later, steps = .index index :: later := by
  unfold steps? at h
  split at h
  next =>
    obtain rfl := Option.some.inj h
    exact .inl ⟨rfl, rfl⟩
  next rest =>
    dsimp only at h
    split at h
    next => cases h
    next =>
      obtain ⟨later, hlater, rfl⟩ := Option.map_eq_some_iff.mp h
      refine .inr (.inl ⟨_, rest.dropWhile isNameChar, later, ?_, hlater, rfl⟩)
      rw [String.toList_ofList, List.takeWhile_append_dropWhile]
  next rest =>
    split at h
    next => cases h
    next index rest' hindex =>
      split at h
      next =>
        obtain ⟨later, -, rfl⟩ := Option.map_eq_some_iff.mp h
        exact .inr (.inr ⟨index, later, rfl⟩)
      next => cases h
  next => cases h

theorem eq_nil_of_steps? (h : steps? text = some []) : text = [] := by
  obtain ⟨rfl, -⟩ | ⟨name, rest, later, -, -, heq⟩ | ⟨index, later, heq⟩ := exists_of_steps? h
  · rfl
  · cases heq
  · cases heq

theorem eq_name_of_steps? {name : String} (h : steps? text = some [.key name]) :
    text = '.' :: name.toList := by
  obtain ⟨-, heq⟩ | ⟨other, rest, later, rfl, hlater, heq⟩ | ⟨index, later, heq⟩ :=
    exists_of_steps? h
  · cases heq
  · obtain ⟨hkey, rfl⟩ := List.cons.inj heq
    obtain rfl := Step.key.inj hkey
    rw [eq_nil_of_steps? hlater, List.append_nil]
  · cases heq

end Steps

theorem ofText_name {name : String} (h : IsName name) : ofText name = { root := name } := by
  rw [ofText, parse?, h.takeWhile_eq, h.dropWhile_eq, if_neg h.1, steps?_nil, String.ofList_toList]
  rfl

theorem eq_of_ofText {text root field : String} (h : ofText text = member root field) :
    text.toList = root.toList ++ '.' :: field.toList := by
  rw [ofText] at h
  cases hparse : parse? text with
  | none =>
      rw [hparse] at h
      cases (eq_member_iff.mp h).2
  | some path =>
      rw [hparse, Option.getD_some] at h
      rw [h, parse?] at hparse
      split at hparse
      next => cases hparse
      next =>
        obtain ⟨steps, hsteps, heq⟩ := Option.bind_eq_some_iff.mp hparse
        obtain ⟨hroot, rfl⟩ := eq_member_iff.mp (Option.some.inj heq)
        rw [← List.takeWhile_append_dropWhile (p := isNameChar) (l := text.toList),
          eq_name_of_steps? hsteps, ← hroot, String.toList_ofList]

theorem ofText_eq_member {text root field : String} (hroot : IsName root) (hfield : IsName field)
    (htext : text.toList = root.toList ++ '.' :: field.toList) : ofText text = member root field := by
  have hdot : isNameChar '.' = false := rfl
  have htake : text.toList.takeWhile isNameChar = root.toList := by
    rw [htext, List.takeWhile_append_of_pos hroot.isNameChar_of_mem, List.takeWhile_cons, hdot]
    exact List.append_nil _
  have hdrop : text.toList.dropWhile isNameChar = '.' :: field.toList := by
    rw [htext, List.dropWhile_append_of_pos hroot.isNameChar_of_mem, List.dropWhile_cons, hdot]
    rfl
  rw [ofText, parse?, htake, hdrop, if_neg hroot.1, steps?_name hfield, String.ofList_toList]
  rfl

end Path

theorem variableKey?_eq_some_iff (name key : String) :
    variableKey? name = some key ↔
      ∃ rest, name.toList.map Char.toLower = variablePrefix.toList ++ rest ∧
        replaceAll ['_', '_'] ['.'] rest = key.toList := by
  rw [variableKey?]
  split
  next hprefix =>
    obtain ⟨rest, hrest⟩ := List.isPrefixOf_iff_prefix.mp hprefix
    rw [← hrest, Option.some.injEq, ← String.length_toList, List.drop_left]
    constructor
    · intro hkey
      exact ⟨rest, rfl, by rw [← hkey, String.toList_ofList]⟩
    · intro ⟨other, hother, hkey⟩
      rw [List.append_cancel_left hother, hkey, String.ofList_toList]
  next hother =>
    constructor
    · intro hkey
      cases hkey
    · intro ⟨rest, hrest, _⟩
      exact absurd (List.isPrefixOf_iff_prefix.mpr ⟨rest, hrest.symm⟩) hother

namespace Setting

def spelling (setting : Setting) (separator : String) : List Char :=
  (variablePrefix ++ setting.sectionName ++ separator ++ setting.field).toList

/-- Case does not count in the name of a variable, and a dot can stand for the second separator. -/
def IsSetBy (setting : Setting) (name : String) : Prop :=
  name.toList.map Char.toLower = setting.spelling "__" ∨
    name.toList.map Char.toLower = setting.spelling "."

instance (setting : Setting) (name : String) : Decidable (setting.IsSetBy name) :=
  inferInstanceAs (Decidable (_ ∨ _))

theorem isName (setting : Setting) :
    Path.IsName setting.sectionName ∧ Path.IsName setting.field := by
  cases setting <;> decide

theorem passes (setting : Setting) :
    Passes ['_', '_'] setting.sectionName.toList ∧ Passes ['_', '_'] setting.field.toList := by
  constructor
  · apply passes_of_isClear
    cases setting <;> decide
  · apply passes_of_isClear
    cases setting <;> decide

theorem dot_not_mem (setting : Setting) :
    '.' ∉ setting.sectionName.toList ∧ '.' ∉ setting.field.toList := by
  cases setting <;> decide

theorem replaceAll_eq_iff (setting : Setting) (rest : List Char) :
    replaceAll ['_', '_'] ['.'] rest = setting.sectionName.toList ++ '.' :: setting.field.toList ↔
      rest = setting.sectionName.toList ++ ['_', '_'] ++ setting.field.toList ∨
        rest = setting.sectionName.toList ++ '.' :: setting.field.toList := by
  obtain ⟨hsection, hfield⟩ := setting.passes
  have hmark : ['_', '_'] ≠ [] := List.cons_ne_nil _ _
  constructor
  · intro h
    obtain ⟨later, hlater, hrest⟩ := exists_of_replaceAll_eq hmark setting.dot_not_mem.1 h
    obtain rfl := eq_of_replaceAll_eq hmark setting.dot_not_mem.2 hlater
    exact hrest
  · rintro (rfl | rfl)
    · rw [List.append_assoc, hsection, replaceAll_mark hmark, hfield.replaceAll_eq]
      rfl
    · have hdot : Passes ['_', '_'] ['.'] := passes_of_isClear rfl
      rw [hsection]
      exact congrArg (setting.sectionName.toList ++ ·) ((hdot.append hfield).replaceAll_eq ['.'])

theorem spelling_eq (setting : Setting) (separator : String) :
    setting.spelling separator = variablePrefix.toList ++
      (setting.sectionName.toList ++ separator.toList ++ setting.field.toList) := by
  simp only [spelling, String.toList_append, List.append_assoc]

/--
If the path leads into the section of a setting, it leads neither to the section as a whole, nor to an
element of it by an index, nor to a part of the setting.
-/
def KeepsToFields (setting : Setting) (path : Path) : Prop :=
  path.root = setting.sectionName →
    ∃ name steps, path.steps = .key name :: steps ∧ (name = setting.field → steps = [])

theorem toList_key (setting : Setting) :
    setting.key.toList = setting.sectionName.toList ++ '.' :: setting.field.toList := by
  simp [key]

/-- There is one name for the place of a setting. -/
theorem ofText_eq_iff (setting : Setting) (text : String) :
    Path.ofText text = .member setting.sectionName setting.field ↔ text = setting.key := by
  constructor
  · intro hpath
    exact String.toList_injective ((Path.eq_of_ofText hpath).trans setting.toList_key.symm)
  · rintro rfl
    exact Path.ofText_eq_member setting.isName.1 setting.isName.2 setting.toList_key

/-- The variables of a setting are those whose names come to its place. -/
theorem isSetBy_iff (setting : Setting) (name : String) :
    setting.IsSetBy name ↔ variableKey? name = some setting.key := by
  rw [IsSetBy, spelling_eq, spelling_eq, variableKey?_eq_some_iff, toList_key]
  constructor
  · rintro (hname | hname)
    · exact ⟨_, hname, (setting.replaceAll_eq_iff _).mpr (.inl rfl)⟩
    · exact ⟨_, hname, (setting.replaceAll_eq_iff _).mpr (.inr (List.append_assoc _ _ _))⟩
  · intro ⟨rest, hname, hrest⟩
    rw [hname]
    obtain rfl | rfl := (setting.replaceAll_eq_iff rest).mp hrest
    · exact .inl rfl
    · exact .inr (by rw [List.append_assoc]; rfl)

example : Setting.IsSetBy .responseFile "PANELGATE__DISCOVERY__RESPONSE_FILE" ∧
    Setting.IsSetBy .requestTimeout "PANELGATE__EVENT_LOGGER__REQUEST_TIMEOUT" := by
  decide

end Setting

namespace Environment

variable {environment : Environment} {setting : Setting}

/-- What the last variable of a setting says, if there is one. -/
def value? (environment : Environment) (setting : Setting) : Option String :=
  ((environment.filter fun entry => setting.IsSetBy entry.1).getLast?).map Prod.snd

/-- The variables that lead into a section lead to the fields of it, and no further. -/
def SetsFields (environment : Environment) : Prop :=
  ∀ entry ∈ environment, ∀ key, variableKey? entry.1 = some key →
    ∀ setting : Setting, setting.KeepsToFields (Path.ofText key)

theorem value?_cons (entry : String × String) :
    value? (entry :: environment) setting =
      (environment.value? setting).or (if setting.IsSetBy entry.1 then some entry.2 else none) := by
  rw [value?, value?, List.filter_cons]
  by_cases hset : setting.IsSetBy entry.1
  · rw [if_pos (decide_eq_true hset), List.getLast?_cons, if_pos hset]
    cases (environment.filter fun entry => setting.IsSetBy entry.1).getLast? with
    | none => rfl
    | some last => rfl
  · rw [if_neg (by simpa using hset), if_neg hset, Option.or_none]

theorem setsFields_of_settings
    (h : ∀ entry ∈ environment,
      variableKey? entry.1 = none ∨ ∃ setting : Setting, setting.IsSetBy entry.1) :
    environment.SetsFields := by
  intro entry hentry key hkey setting hroot
  rcases h entry hentry with hnone | ⟨other, hset⟩
  · cases hkey.symm.trans hnone
  · obtain rfl := Option.some.inj (hkey.symm.trans ((other.isSetBy_iff entry.1).mp hset))
    have hpath := (other.ofText_eq_iff other.key).mpr rfl
    exact ⟨other.field, [], (Path.eq_member_iff.mp hpath).2, fun _ => rfl⟩

end Environment

section Collecting

variable {members : Members}

theorem nodup_names_putVariable (h : (members.map Prod.fst).Nodup) (entry : String × String) :
    ((putVariable members entry).map Prod.fst).Nodup := by
  rw [putVariable]
  split
  next => exact nodup_names_put h _ _
  next => exact h

theorem nodup_names_foldl_putVariable (h : (members.map Prod.fst).Nodup)
    (environment : Environment) :
    ((environment.foldl putVariable members).map Prod.fst).Nodup := by
  induction environment generalizing members with
  | nil => exact h
  | cons entry environment ih => exact ih (nodup_names_putVariable h entry)

theorem nodup_names_ofEnvironment (environment : Environment) :
    ((ofEnvironment environment).map Prod.fst).Nodup :=
  @nodup_names_foldl_putVariable [] List.nodup_nil environment

theorem variableKey?_of_mem_putVariable {entry : String × String} {stored : String × Value}
    (h : stored ∈ putVariable members entry) :
    stored ∈ members ∨ variableKey? entry.1 = some stored.1 := by
  rw [putVariable] at h
  split at h
  next key hkey =>
    rcases mem_put h with rfl | hstored
    · exact .inr hkey
    · exact .inl hstored
  next => exact .inl h

theorem exists_variable_of_mem_foldl {environment : Environment} {stored : String × Value}
    (h : stored ∈ environment.foldl putVariable members) :
    stored ∈ members ∨ ∃ entry ∈ environment, variableKey? entry.1 = some stored.1 := by
  induction environment generalizing members with
  | nil => exact .inl h
  | cons entry environment ih =>
      rcases ih h with hstored | ⟨later, hlater, hkey⟩
      · refine (variableKey?_of_mem_putVariable hstored).imp_right fun hkey => ?_
        exact ⟨entry, List.mem_cons_self, hkey⟩
      · exact .inr ⟨later, List.mem_cons_of_mem entry hlater, hkey⟩

theorem lookup_putVariable (members : Members) (entry : String × String) (setting : Setting) :
    (putVariable members entry).lookup setting.key =
      if setting.IsSetBy entry.1 then some (.text entry.2) else members.lookup setting.key := by
  rw [putVariable]
  split
  next key hkey =>
    have hset : setting.key = key ↔ setting.IsSetBy entry.1 := by
      rw [setting.isSetBy_iff, hkey, Option.some.injEq, eq_comm]
    rw [lookup_put]
    exact if_congr hset rfl rfl
  next hnone =>
    rw [if_neg]
    intro hset
    cases hnone.symm.trans ((setting.isSetBy_iff entry.1).mp hset)

/-- By induction on the variables: each goes over what those before it say. -/
theorem lookup_foldl_putVariable (environment : Environment) (members : Members)
    (setting : Setting) :
    (environment.foldl putVariable members).lookup setting.key =
      ((environment.value? setting).map .text).or (members.lookup setting.key) := by
  induction environment generalizing members with
  | nil => rfl
  | cons entry environment ih =>
      rw [List.foldl_cons, ih, Environment.value?_cons, Option.map_or, Option.or_assoc,
        lookup_putVariable]
      split
      next => rfl
      next => rfl

end Collecting

namespace Environment.SetsFields

variable {environment : Environment}

theorem keepsToFields (h : environment.SetsFields) {stored : String × Value}
    (hstored : stored ∈ ofEnvironment environment) (setting : Setting) :
    setting.KeepsToFields (Path.ofText stored.1) := by
  rcases exists_variable_of_mem_foldl hstored with hnil | ⟨entry, hentry, hkey⟩
  · cases hnil
  · exact h entry hentry stored.1 hkey setting

theorem givesTables (h : environment.SetsFields) : GivesTables (ofEnvironment environment) := by
  intro stored hstored setting hroot
  obtain ⟨name, steps, hsteps, -⟩ := h.keepsToFields hstored setting hroot
  rw [hsteps]
  exact .member name steps stored.2

end Environment.SetsFields

namespace Setting

variable {setting : Setting} {environment : Environment}

theorem statements_eq {entry : String × Value}
    (h : setting.KeepsToFields (Path.ofText entry.1)) :
    setting.statements entry = if entry.1 = setting.key then [entry.2] else [] := by
  rw [statements]
  split
  next hroot =>
    obtain ⟨name, steps, hsteps, hwhole⟩ := h hroot
    have hkey : entry.1 = setting.key ↔ name = setting.field := by
      rw [← setting.ofText_eq_iff, Path.eq_member_iff, hsteps]
      constructor
      · intro hpath
        exact Step.key.inj (List.cons.inj hpath.2).1
      · rintro rfl
        exact ⟨hroot, congrArg _ (hwhole rfl)⟩
    rw [hsteps, statementsBelow]
    split
    next hname => rw [if_pos (hkey.mpr hname), hwhole hname, update]
    next hname => rw [if_neg (mt hkey.mp hname)]
  next hroot =>
    rw [if_neg]
    intro hkey
    exact hroot (Path.eq_member_iff.mp ((setting.ofText_eq_iff entry.1).mpr hkey)).1

theorem isDefinedOnce_ofEnvironment (h : environment.SetsFields) (setting : Setting) :
    setting.IsDefinedOnce (ofEnvironment environment) := by
  apply isDefinedOnce_of_nodup (nodup_names_ofEnvironment environment)
  intro entry hentry hkey
  rw [statements_eq (h.keepsToFields hentry setting), if_neg hkey]

theorem defined?_ofEnvironment (h : environment.SetsFields) (setting : Setting) :
    setting.defined? (ofEnvironment environment) = (environment.value? setting).map .text := by
  have hstatements : (ofEnvironment environment).flatMap setting.statements =
      named setting.key (ofEnvironment environment) := by
    rw [named, List.filterMap_eq_flatMap_toList]
    apply List.flatMap_congr
    intro entry hentry
    rw [statements_eq (h.keepsToFields hentry setting)]
    split
    next => rfl
    next => rfl
  rw [defined?, hstatements, getLast?_named (nodup_names_ofEnvironment environment), ofEnvironment,
    lookup_foldl_putVariable]
  exact Option.or_none

end Setting

end PanelRelay.Settings
