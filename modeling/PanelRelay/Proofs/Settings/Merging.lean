import PanelRelay.Proofs.Settings.Leaves

/-!
What laying a source of settings over others does to one of the four places. It takes over what the
source says there last, and where the source says nothing it is left as it was. In which order the
entries of the source are taken makes a difference only to a place that two of them define.
-/

namespace PanelRelay.Settings

/-- All that counts of a value when it is used as a setting. -/
def Value.readings (value : Value) : Option String × Option Bool :=
  (value.asText?, value.asBool?)

namespace Setting

def ofReadings : (setting : Setting) → Option String × Option Bool → Option setting.Content
  | .responseFile, (text?, _) => text?
  | .enabled, (_, decision?) => decision?
  | .url, (text?, _) => text?
  | .requestTimeout, (text?, _) => text?.bind Duration.parse?

theorem read?_eq (setting : Setting) (value : Value) :
    setting.read? value = setting.ofReadings value.readings := by
  cases setting <;> rfl

end Setting

theorem findings_congr {value? other? : Setting → Option Value} {setting : Setting}
    (h : (value? setting).map Value.readings = (other? setting).map Value.readings) :
    findings value? setting = findings other? setting := by
  have hread : setting.read? = setting.ofReadings ∘ Value.readings := funext setting.read?_eq
  rw [findings, findings, hread, ← Option.map_map, ← Option.map_map, h]

/-- What a table says about a member, each time that it is named. -/
def named (name : String) (members : Members) : List Value :=
  members.filterMap fun member => if member.1 = name then some member.2 else none

namespace Setting

/-- What a value that is put at a place in the section says: the whole, a member, or a part of one. -/
def statementsBelow (setting : Setting) : List Step → Value → List Value
  | [], value => named setting.field value.members
  | .key name :: steps, value =>
      if name = setting.field then [update (fun _ => value) steps .nil] else []
  | .index _ :: _, _ => []

def statements (setting : Setting) (entry : String × Value) : List Value :=
  let path := Path.ofText entry.1
  if path.root = setting.sectionName then setting.statementsBelow path.steps entry.2 else []

/-- What a source says about a setting, if anything; the last that it says counts. -/
def defined? (setting : Setting) (source : Members) : Option Value :=
  (source.flatMap setting.statements).getLast?

/-- At most one entry of a source says anything about a setting. -/
def IsDefinedOnce (setting : Setting) (source : Members) : Prop :=
  source.Pairwise fun entry other => setting.statements entry = [] ∨ setting.statements other = []

theorem defined?_cons (setting : Setting) (entry : String × Value) (source : Members) :
    setting.defined? (entry :: source) =
      (setting.defined? source).or (setting.statements entry).getLast? := by
  rw [defined?, List.flatMap_cons, List.getLast?_append]
  rfl

end Setting

/-- An entry that leads to a section, and makes a table of it. -/
inductive GivesTable : List Step → Value → Prop
  | whole (inner : Members) : GivesTable [] (.table inner)
  | member (name : String) (steps : List Step) (value : Value) :
      GivesTable (.key name :: steps) value

/-- A source that gives the two sections as tables only, in whole or by their members. -/
def GivesTables (source : Members) : Prop :=
  ∀ entry ∈ source, ∀ setting : Setting, (Path.ofText entry.1).root = setting.sectionName →
    GivesTable (Path.ofText entry.1).steps entry.2

section Lookup

theorem lookup_replace (name other : String) (value : Value) (members : Members) :
    (members.map fun member => if member.1 = name then (name, value) else member).lookup other =
      if other = name then (members.lookup name).map fun _ => value else members.lookup other := by
  induction members with
  | nil => simp
  | cons member members ih =>
      obtain ⟨key, found⟩ := member
      rw [List.map_cons]
      by_cases hkey : key = name
      · subst hkey
        by_cases hother : other = key
        · simp [hother]
        · simp [hother, List.lookup_cons, beq_eq_false_iff_ne.mpr hother] at ih ⊢
          exact ih
      · by_cases hother : other = name
        · subst hother
          simp [hkey, List.lookup_cons, beq_eq_false_iff_ne.mpr (Ne.symm hkey)] at ih ⊢
          exact ih
        · simp [hkey, hother, List.lookup_cons] at ih ⊢
          rw [ih]

@[simp] theorem lookup_put (name other : String) (value : Value) (members : Members) :
    (put name value members).lookup other =
      if other = name then some value else members.lookup other := by
  rw [put]
  split
  next hsome =>
    obtain ⟨found, hfound⟩ := Option.isSome_iff_exists.mp hsome
    rw [lookup_replace, hfound]
    rfl
  next hnone =>
    have hmissing : members.lookup name = none := Option.not_isSome_iff_eq_none.mp hnone
    rw [List.lookup_append]
    by_cases hother : other = name
    · subst hother
      simp [hmissing]
    · simp [hother, List.lookup_cons, beq_eq_false_iff_ne.mpr hother]

theorem mem_put {name : String} {value : Value} {members : Members} {member : String × Value}
    (h : member ∈ put name value members) : member = (name, value) ∨ member ∈ members := by
  rw [put] at h
  split at h
  next =>
    obtain ⟨stored, hstored, rfl⟩ := List.mem_map.mp h
    split
    next => exact .inl rfl
    next => exact .inr hstored
  next => simpa [or_comm] using h

theorem nodup_names_put {members : Members} (h : (members.map Prod.fst).Nodup) (name : String)
    (value : Value) : ((put name value members).map Prod.fst).Nodup := by
  rw [put]
  split
  next =>
    have hnames : (members.map fun member => if member.1 = name then (name, value) else member).map
        Prod.fst = members.map Prod.fst := by
      rw [List.map_map]
      refine List.map_congr_left fun member _ => ?_
      by_cases hname : member.1 = name
      · simp [hname]
      · simp [hname]
    rwa [hnames]
  next hnone =>
    have hmissing := List.lookup_eq_none_iff.mp (Option.not_isSome_iff_eq_none.mp hnone)
    rw [List.map_append]
    refine List.nodup_append.mpr ⟨h, List.pairwise_singleton _ name, ?_⟩
    intro stored hstored other hother heq
    obtain ⟨member, hmember, rfl⟩ := List.mem_map.mp hstored
    obtain rfl := List.mem_singleton.mp hother
    exact bne_iff_ne.mp (hmissing member hmember) heq.symm

theorem getLast?_named {members : Members} (h : (members.map Prod.fst).Nodup) (name : String) :
    (named name members).getLast? = members.lookup name := by
  induction members with
  | nil => rfl
  | cons member members ih =>
      obtain ⟨key, value⟩ := member
      obtain ⟨hkey, hmembers⟩ := List.nodup_cons.mp h
      by_cases hname : key = name
      · subst hname
        have hlater : named key members = [] := by
          refine List.filterMap_eq_nil_iff.mpr fun member hmember => if_neg ?_
          rintro rfl
          exact hkey (List.mem_map.mpr ⟨member, hmember, rfl⟩)
        have hnamed : named key ((key, value) :: members) = [value] := by
          rw [← hlater]
          simp [named]
        rw [hnamed, List.lookup_cons_self]
        rfl
      · have hnamed : named name ((key, value) :: members) = named name members := by
          simp [named, hname]
        rw [hnamed, ih hmembers, List.lookup_cons, beq_eq_false_iff_ne.mpr (Ne.symm hname)]

end Lookup

section Readings

theorem readings_merge (base value : Value) : (merge base value).readings = value.readings := by
  cases value
  case table members =>
    rw [merge]
    rfl
  all_goals rw [merge]

/-- Whatever was there before, a place below another makes a table or a list of that one. -/
theorem readings_update (value base other : Value) (steps : List Step) :
    (update (merge · value) steps base).readings =
      (update (fun _ => value) steps other).readings := by
  cases steps with
  | nil => exact readings_merge base value
  | cons step steps =>
      cases step with
      | key name => rfl
      | index index => rfl

theorem readings_lookup_mergeMembers (base inner : Members) (name : String) :
    ((mergeMembers base inner).lookup name).map Value.readings =
      ((named name inner).getLast?.or (base.lookup name)).map Value.readings := by
  induction inner generalizing base with
  | nil =>
      rw [mergeMembers]
      rfl
  | cons member inner ih =>
      obtain ⟨key, value⟩ := member
      rw [mergeMembers, ih, lookup_put]
      by_cases hkey : key = name
      · subst hkey
        have hnamed : named key ((key, value) :: inner) = value :: named key inner := by
          simp [named]
        rw [hnamed, List.getLast?_cons, if_pos rfl]
        cases (named key inner).getLast? with
        | none => exact congrArg some (readings_merge _ value)
        | some last => rfl
      · have hnamed : named name ((key, value) :: inner) = named name inner := by
          simp [named, hkey]
        rw [hnamed, if_neg (Ne.symm hkey)]

end Readings

section Laying

variable {members : Members} {setting : Setting}

theorem lookup_store (members : Members) (name : String) (value : Value) (sectionName : String) :
    (store members name value).lookup sectionName =
      if sectionName = (Path.ofText name).root then
        some (update (merge · value) (Path.ofText name).steps
          ((members.lookup sectionName).getD .nil))
      else members.lookup sectionName := by
  rw [store, lookup_put]
  split
  next heq => rw [heq]
  next => rfl

theorem leaf?_eq (members : Members) (setting : Setting) :
    leaf? members setting =
      ((members.lookup setting.sectionName).getD .nil).members.lookup setting.field := by
  rw [leaf?]
  cases members.lookup setting.sectionName with
  | none => rfl
  | some value => rfl

theorem readings_lookup_update {steps : List Step} {value : Value} (h : GivesTable steps value)
    (base : Value) (setting : Setting) :
    ((update (merge · value) steps base).members.lookup setting.field).map Value.readings =
      ((setting.statementsBelow steps value).getLast?.or
        (base.members.lookup setting.field)).map Value.readings := by
  cases h with
  | whole inner =>
      have hmerge : update (merge · (.table inner)) [] base =
          .table (mergeMembers base.members inner) := by rw [update, merge]
      rw [hmerge]
      exact readings_lookup_mergeMembers base.members inner setting.field
  | member name steps value =>
      rw [update, Value.members, lookup_put, Setting.statementsBelow]
      by_cases hname : name = setting.field
      · rw [if_pos hname.symm, if_pos hname]
        exact congrArg some (readings_update value _ .nil steps)
      · rw [if_neg (Ne.symm hname), if_neg hname]
        rfl

theorem readings_leaf?_store (members : Members) {entry : String × Value}
    (h : (Path.ofText entry.1).root = setting.sectionName →
      GivesTable (Path.ofText entry.1).steps entry.2) :
    (leaf? (store members entry.1 entry.2) setting).map Value.readings =
      ((setting.statements entry).getLast?.or (leaf? members setting)).map Value.readings := by
  rw [leaf?_eq, leaf?_eq, lookup_store, Setting.statements]
  by_cases hroot : (Path.ofText entry.1).root = setting.sectionName
  · rw [if_pos hroot.symm, if_pos hroot, Option.getD_some]
    exact readings_lookup_update (h hroot) _ setting
  · rw [if_neg (Ne.symm hroot), if_neg hroot]
    rfl

/-- By induction on the source: what it says later goes over what it said before. -/
theorem readings_leaf?_layer {source : Members} (h : GivesTables source) (members : Members)
    (setting : Setting) :
    (leaf? (layer members source) setting).map Value.readings =
      ((setting.defined? source).or (leaf? members setting)).map Value.readings := by
  induction source generalizing members with
  | nil => rfl
  | cons entry source ih =>
      obtain ⟨hentry, hsource⟩ := List.forall_mem_cons.mp h
      have hlater := ih hsource (store members entry.1 entry.2)
      have hstored := readings_leaf?_store members (hentry setting)
      rw [layer, List.foldl_cons]
      rw [layer, Option.map_or, hstored] at hlater
      rw [hlater, Setting.defined?_cons, Option.or_assoc, Option.map_or, Option.map_or,
        Option.map_or]

theorem exists_table_update {steps : List Step} {value : Value} (h : GivesTable steps value)
    (base : Value) : ∃ inner, update (merge · value) steps base = .table inner := by
  cases h with
  | whole inner => exact ⟨_, by rw [update, merge]⟩
  | member name steps value => exact ⟨_, by rw [update]⟩

theorem IsTabular.store (htables : IsTabular members) {entry : String × Value}
    (h : ∀ setting : Setting, (Path.ofText entry.1).root = setting.sectionName →
      GivesTable (Path.ofText entry.1).steps entry.2) :
    IsTabular (store members entry.1 entry.2) := by
  intro setting value hvalue
  rw [lookup_store] at hvalue
  split at hvalue
  next hroot =>
    obtain rfl := Option.some.inj hvalue
    exact exists_table_update (h setting hroot.symm) _
  next => exact htables setting value hvalue

theorem IsTabular.layer {source : Members} (htables : IsTabular members) (h : GivesTables source) :
    IsTabular (layer members source) := by
  induction source generalizing members with
  | nil => exact htables
  | cons entry source ih =>
      obtain ⟨hentry, hsource⟩ := List.forall_mem_cons.mp h
      exact ih (htables.store hentry) hsource

theorem isTabular_nil : IsTabular [] := nofun

end Laying

section Arrangement

variable {setting : Setting} {source arranged : Members}

theorem GivesTables.perm (h : GivesTables source) (hperm : arranged.Perm source) :
    GivesTables arranged :=
  fun entry hentry => h entry (hperm.mem_iff.mp hentry)

namespace Setting

theorem defined?_eq_none_iff (setting : Setting) (source : Members) :
    setting.defined? source = none ↔ ∀ entry ∈ source, setting.statements entry = [] := by
  rw [defined?, List.getLast?_eq_none_iff, List.flatMap_eq_nil_iff]

theorem defined?_eq_none_iff_of_perm (hperm : arranged.Perm source) :
    setting.defined? arranged = none ↔ setting.defined? source = none := by
  rw [defined?_eq_none_iff, defined?_eq_none_iff]
  exact forall_congr' fun entry => imp_congr_left hperm.mem_iff

/-- One name at most leads to the setting, and no two entries have it. -/
theorem isDefinedOnce_of_nodup (hnames : (source.map Prod.fst).Nodup) {name : String}
    (h : ∀ entry ∈ source, entry.1 ≠ name → setting.statements entry = []) :
    setting.IsDefinedOnce source := by
  refine (List.pairwise_map.mp hnames).imp_of_mem fun {entry other} hentry hother hne => ?_
  by_cases hname : entry.1 = name
  · exact .inr (h other hother fun hsame => hne (hname.trans hsame.symm))
  · exact .inl (h entry hentry hname)

theorem IsDefinedOnce.perm (h : setting.IsDefinedOnce source) (hperm : source.Perm arranged) :
    setting.IsDefinedOnce arranged :=
  List.Pairwise.perm h hperm Or.symm

theorem IsDefinedOnce.flatMap_statements (h : setting.IsDefinedOnce source)
    (hperm : source.Perm arranged) :
    arranged.flatMap setting.statements = source.flatMap setting.statements := by
  induction hperm with
  | nil => rfl
  | cons entry _ ih =>
      rw [List.flatMap_cons, List.flatMap_cons, ih (List.pairwise_cons.mp h).2]
  | swap entry other source =>
      have hone := (List.pairwise_cons.mp h).1 entry List.mem_cons_self
      rcases hone with hnone | hnone
      · simp [hnone]
      · simp [hnone]
  | trans hfirst _ ihFirst ihSecond =>
      exact (ihSecond (h.perm hfirst)).trans (ihFirst h)

theorem IsDefinedOnce.defined?_eq (h : setting.IsDefinedOnce source)
    (hperm : arranged.Perm source) : setting.defined? arranged = setting.defined? source := by
  rw [defined?, defined?, h.flatMap_statements hperm.symm]

end Setting

end Arrangement

end PanelRelay.Settings
