import PanelRelay.Settings.Config

/-!
The four settings of the program, and how reading them ends. Whatever the settings are gathered from,
the outcome is told by what stands at these four places: nothing, something that cannot be used, or a
content.
-/

namespace PanelRelay.Settings

inductive Setting where
  | responseFile
  | enabled
  | url
  | requestTimeout

namespace Setting

def sectionName : Setting → String
  | .responseFile => "discovery"
  | .enabled => "event_logger"
  | .url => "event_logger"
  | .requestTimeout => "event_logger"

def field : Setting → String
  | .responseFile => "response_file"
  | .enabled => "enabled"
  | .url => "url"
  | .requestTimeout => "request_timeout"

def key (setting : Setting) : String :=
  setting.sectionName ++ "." ++ setting.field

abbrev Content : Setting → Type
  | .responseFile => String
  | .enabled => Bool
  | .url => String
  | .requestTimeout => Duration

/-- What a value comes to as a setting, if it can be used for it. -/
def read? : (setting : Setting) → Value → Option setting.Content
  | .responseFile, value => value.asText?
  | .enabled, value => value.asBool?
  | .url, value => value.asText?
  | .requestTimeout, value => value.asText?.bind Duration.parse?

end Setting

def Config.content (config : Config) : (setting : Setting) → setting.Content
  | .responseFile => config.discovery.responseFile
  | .enabled => config.eventLogger.enabled
  | .url => config.eventLogger.url
  | .requestTimeout => config.eventLogger.requestTimeout

theorem Config.eq_of_content {config other : Config}
    (h : ∀ setting, config.content setting = other.content setting) : config = other := by
  obtain ⟨⟨file⟩, ⟨enabled, url, timeout⟩⟩ := config
  obtain ⟨⟨otherFile⟩, ⟨otherEnabled, otherUrl, otherTimeout⟩⟩ := other
  obtain rfl : file = otherFile := h .responseFile
  obtain rfl : enabled = otherEnabled := h .enabled
  obtain rfl : url = otherUrl := h .url
  obtain rfl : timeout = otherTimeout := h .requestTimeout
  rfl

/-- What was found at each place: nothing, something of no use, or a content. -/
abbrev Findings := (setting : Setting) → Option (Option setting.Content)

def leaf? (members : Members) (setting : Setting) : Option Value :=
  (members.lookup setting.sectionName).bind fun value => value.members.lookup setting.field

def findings (value? : Setting → Option Value) : Findings :=
  fun setting => (value? setting).map setting.read?

/-- Sections are tables where they are there at all. -/
def IsTabular (members : Members) : Prop :=
  ∀ setting : Setting, ∀ value, members.lookup setting.sectionName = some value →
    ∃ inner, value = .table inner

/-- Nothing was found at any place of a section. -/
def IsAbsent (found : Findings) (sectionName : String) : Prop :=
  ∀ setting : Setting, setting.sectionName = sectionName → found setting = none

def ReadsDiscovery (found : Findings) (discovery : Discovery) : Prop :=
  found .responseFile = some (some discovery.responseFile)

def ReadsEventLogger (found : Findings) (logger : EventLogger) : Prop :=
  found .enabled = some (some logger.enabled) ∧ found .url = some (some logger.url) ∧
    found .requestTimeout = some (some logger.requestTimeout)

def ReadsConfig (found : Findings) (config : Config) : Prop :=
  ∀ setting, found setting = some (some (config.content setting))

/-- How a part of the reading ends. What is missing is said to be, by its own name or its section's. -/
inductive Ending (found : Findings) {α : Type} (IsRead : α → Prop) : Except Error α → Prop
  | read {a : α} : IsRead a → Ending found IsRead (.ok a)
  | unreadable {setting : Setting} {error : Error} : found setting = some none →
      (∀ key, error ≠ .missing key) → Ending found IsRead (.error error)
  | missing {setting : Setting} : found setting = none →
      Ending found IsRead (.error (.missing setting.key))
  | missingSection {setting : Setting} : IsAbsent found setting.sectionName →
      Ending found IsRead (.error (.missing setting.sectionName))

namespace Ending

variable {found : Findings} {α β : Type} {IsRead : α → Prop} {IsTaken : β → Prop}

theorem bind {first : Except Error α} {next : α → Except Error β}
    (hfirst : Ending found IsRead first) (hnext : ∀ a, IsRead a → Ending found IsTaken (next a)) :
    Ending found IsTaken (first >>= next) := by
  cases hfirst with
  | read hread => exact hnext _ hread
  | unreadable hfound hother => exact .unreadable hfound hother
  | missing hfound => exact .missing hfound
  | missingSection hnone => exact .missingSection hnone

theorem map {first : Except Error α} {f : α → β} (hfirst : Ending found IsRead first)
    (hmap : ∀ a, IsRead a → IsTaken (f a)) : Ending found IsTaken (first.map f) := by
  cases hfirst with
  | read hread => exact .read (hmap _ hread)
  | unreadable hfound hother => exact .unreadable hfound hother
  | missing hfound => exact .missing hfound
  | missingSection hnone => exact .missingSection hnone

end Ending

section Parts

variable {found : Findings} {α : Type} {IsMissed : Prop} {IsRead : α → Prop}

theorem ending_ifPresent {check : Value → Except Error α} {value? : Option Value}
    (hnone : value? = none → IsMissed)
    (hsome : ∀ value, value? = some value → Ending found IsRead (check value)) :
    Ending found (fun part? => part?.elim IsMissed IsRead) (ifPresent check value?) := by
  cases value? with
  | none => exact .read (hnone rfl)
  | some value => exact (hsome value rfl).map fun _ hread => hread

theorem ending_orMissing {setting : Setting} {part? : Option α}
    (h : part?.elim (found setting = none) IsRead) :
    Ending found IsRead (orMissing setting.key part?) := by
  cases part? with
  | none => exact .missing h
  | some part => exact .read h

theorem ending_orMissing_section {setting : Setting} {part? : Option α}
    (h : part?.elim (IsAbsent found setting.sectionName) IsRead) :
    Ending found IsRead (orMissing setting.sectionName part?) := by
  cases part? with
  | none => exact .missingSection h
  | some part => exact .read h

end Parts

theorem asDuration_of_asText {key text : String} {value : Value} (h : asText key value = .ok text) :
    asDuration key value =
      match Duration.parse? text with
      | some duration => .ok duration
      | none => .error (.invalid key
          s!"invalid value: string {quote text}, expected a duration") := by
  rw [asDuration, h]
  rfl

/-- A check that takes whatever can be used for a setting, and never complains of absence. -/
structure Checks (setting : Setting) (check : Value → Except Error setting.Content) : Prop where
  readable : ∀ {value content}, setting.read? value = some content → check value = .ok content
  unreadable : ∀ {value}, setting.read? value = none →
    ∃ error, check value = .error error ∧ ∀ key, error ≠ .missing key

namespace Checks

theorem ofResponseFile (key : String) : Checks .responseFile (asText key) where
  readable {value content} hread := by
    have htext : value.asText? = some content := hread
    rw [asText, htext]
  unreadable {value} hnone := by
    have htext : value.asText? = none := hnone
    exact ⟨.unsuitable key "a string", by rw [asText, htext], fun _ => nofun⟩

theorem ofEnabled (key : String) : Checks .enabled (asBool key) where
  readable {value content} hread := by
    have hdecision : value.asBool? = some content := hread
    rw [asBool, hdecision]
  unreadable {value} hnone := by
    have hdecision : value.asBool? = none := hnone
    exact ⟨.unsuitable key "a boolean", by rw [asBool, hdecision], fun _ => nofun⟩

theorem ofUrl (key : String) : Checks .url (asText key) where
  readable hread := (ofResponseFile key).readable hread
  unreadable hnone := (ofResponseFile key).unreadable hnone

theorem ofRequestTimeout (key : String) : Checks .requestTimeout (asDuration key) where
  readable {value content} hread := by
    obtain ⟨text, htext, hduration⟩ := Option.bind_eq_some_iff.mp hread
    rw [asDuration_of_asText ((ofResponseFile key).readable htext), hduration]
  unreadable {value} hnone := by
    cases htext : value.asText? with
    | none =>
        obtain ⟨error, hcheck, hother⟩ := (ofResponseFile key).unreadable htext
        exact ⟨error, by rw [asDuration, hcheck]; rfl, hother⟩
    | some text =>
        have hread : value.asText?.bind Duration.parse? = none := hnone
        rw [htext, Option.bind_some] at hread
        have hcheck := asDuration_of_asText ((ofResponseFile key).readable htext)
        rw [hread] at hcheck
        exact ⟨_, hcheck, fun _ => nofun⟩

variable {setting : Setting} {check : Value → Except Error setting.Content}

theorem ending (h : Checks setting check) {found : Findings} {value? : Option Value}
    (hfound : found setting = value?.map setting.read?) :
    Ending found (fun content? => content?.elim (found setting = none)
      fun content => found setting = some (some content)) (ifPresent check value?) := by
  apply ending_ifPresent
  · intro hnone
    rw [hfound, hnone, Option.map_none]
  · intro value hvalue
    rw [hvalue, Option.map_some] at hfound
    cases hread : setting.read? value with
    | some content =>
        rw [h.readable hread]
        exact .read (hfound.trans (congrArg some hread))
    | none =>
        obtain ⟨error, hcheck, hother⟩ := h.unreadable hread
        rw [hcheck]
        exact .unreadable (hfound.trans (congrArg some hread)) hother

end Checks

section Sections

variable {found : Findings}

theorem ending_discovery {inner : Members}
    (hfound : found .responseFile =
      (inner.lookup "response_file").map (Setting.read? .responseFile)) :
    Ending found (ReadsDiscovery found) (Discovery.ofValue "discovery" (.table inner)) := by
  refine ((Checks.ofResponseFile "discovery.response_file").ending hfound).bind ?_
  intro file? hfile
  refine (ending_orMissing hfile).bind ?_
  intro file hfile
  exact .read hfile

theorem ending_eventLogger {inner : Members}
    (henabled : found .enabled = (inner.lookup "enabled").map (Setting.read? .enabled))
    (hurl : found .url = (inner.lookup "url").map (Setting.read? .url))
    (htimeout : found .requestTimeout =
      (inner.lookup "request_timeout").map (Setting.read? .requestTimeout)) :
    Ending found (ReadsEventLogger found)
      (EventLogger.ofValue "event_logger" (.table inner)) := by
  refine ((Checks.ofEnabled "event_logger.enabled").ending henabled).bind ?_
  intro enabled? henabled
  refine ((Checks.ofUrl "event_logger.url").ending hurl).bind ?_
  intro url? hurl
  refine ((Checks.ofRequestTimeout "event_logger.request_timeout").ending htimeout).bind ?_
  intro timeout? htimeout
  refine (ending_orMissing henabled).bind ?_
  intro enabled henabled
  refine (ending_orMissing hurl).bind ?_
  intro url hurl
  refine (ending_orMissing htimeout).bind ?_
  intro timeout htimeout
  exact .read ⟨henabled, hurl, htimeout⟩

end Sections

theorem leaf?_eq_none {members : Members} {setting : Setting}
    (h : members.lookup setting.sectionName = none) : leaf? members setting = none := by
  rw [leaf?, h, Option.bind_none]

theorem leaf?_eq_lookup {members inner : Members} {setting : Setting}
    (h : members.lookup setting.sectionName = some (.table inner)) :
    leaf? members setting = inner.lookup setting.field := by
  rw [leaf?, h, Option.bind_some]
  rfl

theorem findings_eq_none {members : Members} {setting : Setting}
    (h : members.lookup setting.sectionName = none) : findings (leaf? members) setting = none := by
  rw [findings, leaf?_eq_none h, Option.map_none]

theorem findings_eq_lookup {members inner : Members} {setting : Setting}
    (h : members.lookup setting.sectionName = some (.table inner)) :
    findings (leaf? members) setting = (inner.lookup setting.field).map setting.read? := by
  rw [findings, leaf?_eq_lookup h]

/-- Reading the settings ends as what stands at the four places says. -/
theorem ending_ofMembers {members : Members} (htables : IsTabular members) :
    Ending (findings (leaf? members)) (ReadsConfig (findings (leaf? members)))
      (Config.ofMembers members) := by
  let found := findings (leaf? members)
  have hdiscovery : Ending found
      (fun discovery? => discovery?.elim (IsAbsent found "discovery") (ReadsDiscovery found))
      (ifPresent (Discovery.ofValue "discovery") (members.lookup "discovery")) := by
    apply ending_ifPresent
    · intro hnone setting hsetting
      exact findings_eq_none (hsetting ▸ hnone)
    · intro value hvalue
      obtain ⟨inner, rfl⟩ := htables .responseFile value hvalue
      exact ending_discovery (findings_eq_lookup hvalue)
  have hlogger : Ending found
      (fun logger? => logger?.elim (IsAbsent found "event_logger") (ReadsEventLogger found))
      (ifPresent (EventLogger.ofValue "event_logger") (members.lookup "event_logger")) := by
    apply ending_ifPresent
    · intro hnone setting hsetting
      exact findings_eq_none (hsetting ▸ hnone)
    · intro value hvalue
      obtain ⟨inner, rfl⟩ := htables .enabled value hvalue
      exact ending_eventLogger (findings_eq_lookup hvalue) (findings_eq_lookup hvalue)
        (findings_eq_lookup hvalue)
  refine hdiscovery.bind ?_
  intro discovery? hdiscovery
  refine hlogger.bind ?_
  intro logger? hlogger
  refine (@ending_orMissing_section found _ _ .responseFile _ hdiscovery).bind ?_
  intro discovery hdiscovery
  refine (@ending_orMissing_section found _ _ .enabled _ hlogger).bind ?_
  intro logger hlogger
  refine .read fun setting => ?_
  cases setting with
  | responseFile => exact hdiscovery
  | enabled => exact hlogger.1
  | url => exact hlogger.2.1
  | requestTimeout => exact hlogger.2.2

end PanelRelay.Settings
