import PanelRelay.Proofs.Json.Documents
import PanelRelay.Proofs.Settings.Sources
import PanelRelay.Proofs.Settings.Variables

/-!
Which source each setting is read from. Each of the four is looked for by itself, in the variables of
the environment first, then in the optional file, and in the required one last; what another setting
is, or where it comes from, does not count. Nor does the order in which the entries of a file are
taken, unless two of them define the setting.
-/

namespace PanelRelay.Settings

/-- What the sources say about a setting, the environment before the files. -/
def latest? (base site : Members) (environment : Environment) (setting : Setting) : Option Value :=
  ((environment.value? setting).map .text).or
    ((setting.defined? site).or (setting.defined? base))

/-- What the sources say when the entries of each file are taken in the convention's order. -/
def Convention.latest? (convention : Convention) (base site : Members) :
    Environment → Setting → Option Value :=
  Settings.latest? (convention.arrange .required base) (convention.arrange .optional site)

section Arranged

variable {base site : Members} {environment : Environment} {setting : Setting}

theorem latest?_eq_none_iff : latest? base site environment setting = none ↔
    environment.value? setting = none ∧ setting.defined? site = none ∧
      setting.defined? base = none := by
  rw [latest?, Option.or_eq_none_iff, Option.or_eq_none_iff, Option.map_eq_none_iff]

theorem Convention.latest?_eq_none_iff (convention : Convention) :
    convention.latest? base site environment setting = none ↔
      Settings.latest? base site environment setting = none := by
  rw [latest?, Settings.latest?_eq_none_iff, Settings.latest?_eq_none_iff,
    Setting.defined?_eq_none_iff_of_perm (convention.perm .required base),
    Setting.defined?_eq_none_iff_of_perm (convention.perm .optional site)]

theorem Convention.latest?_eq (convention : Convention) (hbase : setting.IsDefinedOnce base)
    (hsite : setting.IsDefinedOnce site) :
    convention.latest? base site environment setting =
      Settings.latest? base site environment setting := by
  rw [latest?, Settings.latest?, Settings.latest?,
    hbase.defined?_eq (convention.perm .required base),
    hsite.defined?_eq (convention.perm .optional site)]

end Arranged

/-- A source of tables only, none of them with a name that leads anywhere else. -/
def IsSectioned (source : Members) : Prop :=
  ∀ entry ∈ source, Path.IsName entry.1 ∧ ∃ inner, entry.2 = .table inner

namespace IsSectioned

variable {source : Members}

theorem givesTables (h : IsSectioned source) : GivesTables source := by
  intro entry hentry setting hroot
  obtain ⟨hname, inner, hinner⟩ := h entry hentry
  rw [Path.ofText_name hname, hinner]
  exact .whole inner

theorem statements_eq (h : IsSectioned source) (setting : Setting) {entry : String × Value}
    (hentry : entry ∈ source) : setting.statements entry =
      if entry.1 = setting.sectionName then named setting.field entry.2.members else [] := by
  rw [Setting.statements, Path.ofText_name (h entry hentry).1]
  rfl

theorem defined?_eq (h : IsSectioned source) (setting : Setting) :
    setting.defined? source =
      (source.flatMap fun entry =>
        if entry.1 = setting.sectionName then named setting.field entry.2.members
        else []).getLast? := by
  rw [Setting.defined?, List.flatMap_congr fun entry => h.statements_eq setting]

theorem isDefinedOnce (h : IsSectioned source) (hnames : (source.map Prod.fst).Nodup)
    (setting : Setting) : setting.IsDefinedOnce source := by
  apply Setting.isDefinedOnce_of_nodup hnames
  intro entry hentry hsection
  rw [h.statements_eq setting hentry, if_neg hsection]

end IsSectioned

section Outcome

variable {found : Findings} {outcome : Except Error Config}

theorem ReadsConfig.eq {config other : Config} (h : ReadsConfig found config)
    (hother : ReadsConfig found other) : config = other := by
  apply Config.eq_of_content
  intro setting
  exact Option.some.inj (Option.some.inj ((h setting).symm.trans (hother setting)))

namespace Ending

theorem eq_ok_iff (h : Ending found (ReadsConfig found) outcome) (config : Config) :
    outcome = .ok config ↔ ReadsConfig found config := by
  constructor
  · rintro rfl
    cases h with
    | read hread => exact hread
  · intro hconfig
    cases h with
    | read hread => rw [hread.eq hconfig]
    | unreadable hfound hother => cases hfound.symm.trans (hconfig _)
    | missing hfound => cases hfound.symm.trans (hconfig _)
    | missingSection hnone => cases (hnone _ rfl).symm.trans (hconfig _)

theorem of_missing {key : String} (h : Ending found (ReadsConfig found) outcome)
    (hmissing : outcome = .error (.missing key)) :
    (∃ setting : Setting, key = setting.key ∧ found setting = none) ∨
      ∃ setting : Setting, key = setting.sectionName ∧ IsAbsent found setting.sectionName := by
  subst hmissing
  cases h with
  | unreadable hfound hother => exact absurd rfl (hother key)
  | missing hfound => exact .inl ⟨_, rfl, hfound⟩
  | missingSection hnone => exact .inr ⟨_, rfl, hnone⟩

theorem exists_missing {setting : Setting} (h : Ending found (ReadsConfig found) outcome)
    (hnone : found setting = none) (hreadable : ∀ setting, found setting ≠ some none) :
    ∃ key, outcome = .error (.missing key) := by
  cases h with
  | read hread => cases hnone.symm.trans (hread setting)
  | unreadable hfound hother => exact absurd hfound (hreadable _)
  | missing hfound => exact ⟨_, rfl⟩
  | missingSection hnone => exact ⟨_, rfl⟩

end Ending

end Outcome

section Sources

variable {convention : Convention} {directory : Files.Directory} {environment : Environment}
  {base site : Members}

/-- Of the variables for one setting only the last is left, so their order is of no account. -/
theorem defined?_arranged_environment (convention : Convention) (h : environment.SetsFields)
    (setting : Setting) :
    setting.defined? (convention.arrange .environment (ofEnvironment environment)) =
      (environment.value? setting).map .text := by
  have honce := Setting.isDefinedOnce_ofEnvironment h setting
  rw [honce.defined?_eq (convention.perm .environment _), Setting.defined?_ofEnvironment h]

theorem findings_gathered (convention : Convention) (hbase : GivesTables base)
    (hsite : GivesTables site) (henvironment : environment.SetsFields) :
    findings (leaf? (layers convention base site (ofEnvironment environment))) =
      findings (convention.latest? base site environment) := by
  funext setting
  apply findings_congr
  have hempty : leaf? [] setting = none := rfl
  rw [layers, readings_leaf?_layer (henvironment.givesTables.perm (convention.perm _ _)),
    Option.map_or, readings_leaf?_layer (hsite.perm (convention.perm _ _)), Option.map_or,
    readings_leaf?_layer (hbase.perm (convention.perm _ _)), hempty, Option.or_none,
    defined?_arranged_environment convention henvironment, Convention.latest?, latest?,
    Option.map_or, Option.map_or]

theorem isTabular_layers (convention : Convention) (hbase : GivesTables base)
    (hsite : GivesTables site) (henvironment : environment.SetsFields) :
    IsTabular (layers convention base site (ofEnvironment environment)) := by
  have hlower := isTabular_nil.layer (hbase.perm (convention.perm .required base))
  have hfiles := hlower.layer (hsite.perm (convention.perm .optional site))
  exact hfiles.layer (henvironment.givesTables.perm (convention.perm .environment _))

theorem load_eq (hrequired : FileSays convention.formats directory "config" base)
    (hoptional : FileSays convention.formats directory "config_local" site ∨
      IsWithoutFile convention.formats directory "config_local" ∧ site = []) :
    Config.load convention directory environment =
      Config.ofMembers (layers convention base site (ofEnvironment environment)) := by
  have hbase : required convention.formats directory requiredName = .ok base :=
    (required_eq_ok_iff base).mpr hrequired
  have hsite : optional convention.formats directory optionalName = .ok site :=
    (optional_eq_ok_iff site).mpr hoptional
  simp only [Config.load, gather, hbase, hsite]
  rfl

theorem ending_load (hrequired : FileSays convention.formats directory "config" base)
    (hoptional : FileSays convention.formats directory "config_local" site ∨
      IsWithoutFile convention.formats directory "config_local" ∧ site = [])
    (hbase : GivesTables base) (hsite : GivesTables site)
    (henvironment : environment.SetsFields) :
    Ending (findings (convention.latest? base site environment))
      (ReadsConfig (findings (convention.latest? base site environment)))
      (Config.load convention directory environment) := by
  rw [load_eq hrequired hoptional, ← findings_gathered convention hbase hsite henvironment]
  exact ending_ofMembers (isTabular_layers convention hbase hsite henvironment)

theorem findings_latest?_eq_none_iff (convention : Convention) (base site : Members)
    (environment : Environment) (setting : Setting) :
    findings (convention.latest? base site environment) setting = none ↔
      latest? base site environment setting = none :=
  Option.map_eq_none_iff.trans convention.latest?_eq_none_iff

theorem findings_eq_some_iff {value? : Setting → Option Value} {setting : Setting}
    {content? : Option setting.Content} :
    findings value? setting = some content? ↔
      ∃ value, value? setting = some value ∧ setting.read? value = content? :=
  Option.map_eq_some_iff

/--
The settings are those that the latest source says they are. What is reported to be missing is a
setting that no source mentions, or a section with no such setting in it; if all that is mentioned can
be used, missing settings are reported always. Which settings the sources mention does not depend on
the order in which entries are taken, nor does what they say of one that no file defines twice.
-/
theorem load_reads_latest (convention : Convention) (directory : Files.Directory)
    (environment : Environment) (base site : Members)
    (hrequired : FileSays convention.formats directory "config" base)
    (hoptional : FileSays convention.formats directory "config_local" site ∨
      IsWithoutFile convention.formats directory "config_local" ∧ site = [])
    (hbase : GivesTables base) (hsite : GivesTables site)
    (henvironment : environment.SetsFields) :
    (∀ config, Config.load convention directory environment = .ok config ↔
      ∀ setting, ∃ value, convention.latest? base site environment setting = some value ∧
        setting.read? value = some (config.content setting)) ∧
    (∀ key, Config.load convention directory environment = .error (.missing key) →
      (∃ setting : Setting, key = setting.key ∧ latest? base site environment setting = none) ∨
        ∃ setting : Setting, key = setting.sectionName ∧
          ∀ other : Setting, other.sectionName = setting.sectionName →
            latest? base site environment other = none) ∧
    ((∀ setting value, convention.latest? base site environment setting = some value →
        setting.read? value ≠ none) →
      ((∃ key, Config.load convention directory environment = .error (.missing key)) ↔
        ∃ setting, latest? base site environment setting = none)) ∧
    ∀ setting : Setting, setting.IsDefinedOnce base → setting.IsDefinedOnce site →
      convention.latest? base site environment setting =
        latest? base site environment setting := by
  have hending := ending_load hrequired hoptional hbase hsite henvironment
  have hnone := findings_latest?_eq_none_iff convention base site environment
  refine ⟨fun config => ?_, fun key hmissing => ?_, fun hreadable => ⟨?_, ?_⟩,
    fun setting hbase hsite => convention.latest?_eq hbase hsite⟩
  · rw [hending.eq_ok_iff]
    exact forall_congr' fun setting => findings_eq_some_iff
  · refine (hending.of_missing hmissing).imp ?_ ?_
    · intro ⟨setting, hkey, hmissing⟩
      exact ⟨setting, hkey, (hnone setting).mp hmissing⟩
    · intro ⟨setting, hkey, hmissing⟩
      exact ⟨setting, hkey, fun other hother => (hnone other).mp (hmissing other hother)⟩
  · intro ⟨key, hmissing⟩
    obtain ⟨setting, -, hmissing⟩ | ⟨setting, -, hmissing⟩ := hending.of_missing hmissing
    · exact ⟨setting, (hnone setting).mp hmissing⟩
    · exact ⟨setting, (hnone setting).mp (hmissing setting rfl)⟩
  · intro ⟨setting, hmissing⟩
    apply hending.exists_missing ((hnone setting).mpr hmissing)
    intro setting hfound
    obtain ⟨value, hvalue, hread⟩ := findings_eq_some_iff.mp hfound
    exact hreadable setting value hvalue hread

end Sources

section Layered

theorem read_json {text : String} {document : Json.Value} {members : Members}
    (htext : textOfFile (Utf8.encode text) = text.toList)
    (htokens : Json.tokens? text.toList = some document.tokens)
    (hmembers : ofJson? maxDepth document = some (.table members)) :
    Format.json.read (textOfFile (Utf8.encode text)) = .ok members := by
  have hdocument : Json.Value.parse? text = some document := by
    rw [Json.Value.parse?, htokens]
    exact (Json.ofTokens?_eq_some_iff _ document).mpr rfl
  have hparse : parseJson? text.toList = some members := by
    simp only [parseJson?, String.ofList_toList, hdocument, hmembers, Option.bind_eq_bind,
      Option.bind_some]
  simp only [htext, Format.json, hparse]
  rfl

def baseText : String :=
  "\x7b\"discovery\": \x7b\"response_file\": \"capture.json\"\x7d, " ++
    "\"event_logger\": \x7b\"enabled\": true, \"request_timeout\": \"5s\"\x7d\x7d"

def siteText : String :=
  "\x7b\"event_logger\": \x7b\"enabled\": false, \"request_timeout\": \"9s\"\x7d\x7d"

/-- Two files, and a setting that neither of them has. -/
def layeredFiles : Files.Directory :=
  [("config.json", Utf8.encode baseText), ("config_local.json", Utf8.encode siteText)]

/-- The other format first, and every source from its end. -/
def backwards : Convention where
  formats := [.json, .toml]
  arrange _ source := source.reverse
  perm _ source := source.reverse_perm

def baseMembers : Members :=
  [("discovery", .table [("response_file", .text "capture.json")]),
    ("event_logger", .table [("enabled", .bool true), ("request_timeout", .text "5s")])]

def siteMembers : Members :=
  [("event_logger", .table [("enabled", .bool false), ("request_timeout", .text "9s")])]

def layeredEnvironment : Environment :=
  [("HOME", "/"), ("PANELGATE__EVENT_LOGGER__URL", "http://h/e"),
    ("PANELGATE__EVENT_LOGGER__REQUEST_TIMEOUT", "2m")]

def layeredConfig : Config where
  discovery := { responseFile := "capture.json" }
  eventLogger := {
    enabled := false
    url := "http://h/e"
    requestTimeout := { seconds := 120, nanos := 0 } }

theorem fileSays_baseMembers {formats : List Format}
    (hfile : IsFirstFile formats layeredFiles "config" .json (Utf8.encode baseText)) :
    FileSays formats layeredFiles "config" baseMembers := by
  refine ⟨_, _, hfile, ?_⟩
  exact @read_json _
    (.ofMembers [("discovery", .ofMembers [("response_file", .ofText "capture.json")]),
      ("event_logger", .ofMembers [("enabled", .bool true), ("request_timeout", .ofText "5s")])]) _
    (by decide +kernel) (by decide +kernel) rfl

theorem fileSays_siteMembers {formats : List Format}
    (hfile : IsFirstFile formats layeredFiles "config_local" .json (Utf8.encode siteText)) :
    FileSays formats layeredFiles "config_local" siteMembers := by
  refine ⟨_, _, hfile, ?_⟩
  exact @read_json _
    (.ofMembers [("event_logger", .ofMembers [("enabled", .bool false),
      ("request_timeout", .ofText "9s")])]) _
    (by decide +kernel) (by decide +kernel) rfl

theorem isSectioned_baseMembers : IsSectioned baseMembers := by
  simp only [IsSectioned, baseMembers, List.forall_mem_cons]
  exact ⟨⟨by decide, _, rfl⟩, ⟨by decide, _, rfl⟩, nofun⟩

theorem isSectioned_siteMembers : IsSectioned siteMembers := by
  simp only [IsSectioned, siteMembers, List.forall_mem_cons]
  exact ⟨⟨by decide, _, rfl⟩, nofun⟩

theorem setsFields_layeredEnvironment : layeredEnvironment.SetsFields := by
  apply Environment.setsFields_of_settings
  simp only [layeredEnvironment, List.forall_mem_cons]
  exact ⟨.inl (by decide +kernel), .inr ⟨.url, by decide⟩, .inr ⟨.requestTimeout, by decide⟩, nofun⟩

theorem latest?_layered (environment : Environment) (setting : Setting) :
    latest? baseMembers siteMembers environment setting =
      ((environment.value? setting).map .text).or
        ((siteMembers.flatMap fun entry =>
          if entry.1 = setting.sectionName then named setting.field entry.2.members
          else []).getLast?.or
        (baseMembers.flatMap fun entry =>
          if entry.1 = setting.sectionName then named setting.field entry.2.members
          else []).getLast?) := by
  rw [latest?, isSectioned_baseMembers.defined?_eq, isSectioned_siteMembers.defined?_eq]

theorem load_layeredFiles :
    Config.load backwards layeredFiles layeredEnvironment = .ok layeredConfig := by
  obtain ⟨hload, -, -, horder⟩ := load_reads_latest backwards layeredFiles layeredEnvironment
    baseMembers siteMembers (fileSays_baseMembers ((find?_eq_some_iff _ _).mp rfl))
    (.inl (fileSays_siteMembers ((find?_eq_some_iff _ _).mp rfl)))
    isSectioned_baseMembers.givesTables isSectioned_siteMembers.givesTables
    setsFields_layeredEnvironment
  rw [hload]
  intro setting
  rw [horder setting (isSectioned_baseMembers.isDefinedOnce (by decide) setting)
    (isSectioned_siteMembers.isDefinedOnce (by decide) setting), latest?_layered]
  cases setting with
  | responseFile => exact ⟨.text "capture.json", rfl, rfl⟩
  | enabled => exact ⟨.bool false, rfl, rfl⟩
  | url => exact ⟨.text "http://h/e", rfl, rfl⟩
  | requestTimeout => exact ⟨.text "2m", rfl, by decide +kernel⟩

/-- A variable that makes a list of a section. -/
def elementEnvironment : Environment :=
  [("PANELGATE__EVENT_LOGGER__URL", "http://h/e"), ("PANELGATE__DISCOVERY[0]", "list.json")]

/-- Another spelling of a variable. -/
def respelledEnvironment : Environment :=
  [("PANELGATE__EVENT_LOGGER__URL", "http://h/e"),
    ("panelgate__discovery.response_file", "dotted.json")]

/-- A variable that cannot be used, where another setting is missing. -/
def unusableEnvironment : Environment :=
  [("PANELGATE__EVENT_LOGGER__ENABLED", "maybe")]

/--
What does not keep to the names of the settings: an element of a section counts over what the files
say, other spellings of a name count as that name, and a setting that cannot be used is reported in
place of one that is missing.
-/
theorem load_otherwise :
    (variableKey? "PANELGATE__DISCOVERY[0]" = some "discovery[0]" ∧
      (Path.ofText "discovery[0]").root = "discovery" ∧
      (Path.ofText "discovery[0]").steps = [.index 0] ∧
      latest? baseMembers siteMembers elementEnvironment .responseFile =
        some (.text "capture.json") ∧
      (Config.load .plain layeredFiles elementEnvironment).toOption.map (·.discovery.responseFile) =
        some "list.json") ∧
    ((Config.load .plain layeredFiles respelledEnvironment).toOption.map (·.discovery.responseFile) =
      some "dotted.json") ∧
    (latest? baseMembers siteMembers unusableEnvironment .url = none ∧
      ∀ key, Config.load .plain layeredFiles unusableEnvironment ≠ .error (.missing key)) := by
  have hload : ∀ environment, Config.load .plain layeredFiles environment = Config.ofMembers
      (layers .plain baseMembers siteMembers (ofEnvironment environment)) :=
    fun environment => load_eq (fileSays_baseMembers ((find?_eq_some_iff _ _).mp rfl))
      (.inl (fileSays_siteMembers ((find?_eq_some_iff _ _).mp rfl)))
  rw [hload, hload, hload, latest?_layered, latest?_layered]
  have hother : (match Config.ofMembers (layers .plain baseMembers siteMembers
      (ofEnvironment unusableEnvironment)) with
    | .error (.missing _) => false
    | _ => true) = true := by
    decide +kernel
  refine ⟨⟨by decide +kernel, by decide +kernel, by decide +kernel, rfl, by decide +kernel⟩,
    by decide +kernel, rfl, fun key hmissing => ?_⟩
  rw [hmissing] at hother
  cases hother

end Layered

end PanelRelay.Settings
