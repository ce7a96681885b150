import PanelRelay.Host.Replay
import PanelRelay.Proofs.Device.Mac
import PanelRelay.Proofs.Device.Query

/-!
How a run of the host ends. The captured file alone decides whether the run succeeds and which panel
it announces; what is reported to the event logger, and how that goes, only adds notes of its own.
-/

namespace PanelRelay

/-- A list made of the members of two others, each of which keeps its order. -/
inductive Interleaved {α : Type} : List α → List α → List α → Prop
  | nil : Interleaved [] [] []
  | left {a : α} {first second whole : List α} :
      Interleaved first second whole → Interleaved (a :: first) second (a :: whole)
  | right {a : α} {first second whole : List α} :
      Interleaved first second whole → Interleaved first (a :: second) (a :: whole)

namespace Interleaved

variable {α : Type} {first second whole : List α}

theorem filter_eq {p : α → Bool} (h : Interleaved first second whole)
    (hsecond : ∀ a ∈ second, p a = false) : whole.filter p = first.filter p := by
  induction h with
  | nil => rfl
  | left _ ih => rw [List.filter_cons, List.filter_cons, ih hsecond]
  | @right a first second whole _ ih =>
      obtain ⟨ha, hsecond⟩ := List.forall_mem_cons.mp hsecond
      rw [List.filter_cons_of_neg (by simp [ha]), ih hsecond]

theorem between (front middle back : List α) :
    Interleaved (front ++ back) middle (front ++ middle ++ back) := by
  induction front with
  | cons a front ih => exact .left ih
  | nil =>
      induction middle with
      | cons a middle ih => exact .right ih
      | nil =>
          induction back with
          | nil => exact .nil
          | cons a back ih => exact .left ih

end Interleaved

theorem Property.Store.origin_of_mem_read {store : Property.Store} {kind : Property.Kind}
    {address : Property.Address} {event : Journal.Event}
    (h : event ∈ (store.read kind address).events) : event.origin = .property := by
  have hending := store.readEnding_read kind address
  generalize store.read kind address = noted at h hending
  cases hending with
  | unavailable _ => rw [List.mem_singleton.mp h, Property.Address.notAvailable]
  | withoutValue _ _ => rw [List.mem_singleton.mp h, Property.Address.withoutValue]
  | otherKind _ _ _ => rw [List.mem_singleton.mp h, Property.Address.otherKind]
  | content _ _ => cases h

namespace EventLogger

theorem origin_of_mem_conclude {response : Http.Response} {event : Journal.Event}
    (h : event ∈ (conclude response).events) : event.origin = .exchange := by
  rw [conclude] at h
  split at h
  next =>
    split at h
    next =>
      rw [List.mem_singleton.mp h]
      rfl
    next => cases h
  next =>
    split at h
    next =>
      rw [List.mem_singleton.mp h]
      rfl
    next =>
      rw [List.mem_singleton.mp h]
      rfl

theorem origin_of_mem_send {service : Http.Request → Http.Delivery} {url body : String}
    {event : Journal.Event} (h : event ∈ (send service url body).events) :
    event.origin = .exchange := by
  rw [send] at h
  split at h
  next => cases h
  next =>
    dsimp only at h
    split at h
    next => cases h
    next => cases h
    next => exact origin_of_mem_conclude h

theorem origin_of_mem_exchange {order : Envelope.DeclarationOrder}
    {service : Http.Request → Http.Delivery} {url : String} {message : Event.Message}
    {event : Journal.Event} (h : event ∈ (exchange order service url message).events) :
    event.origin = .exchange := by
  rw [exchange] at h
  split at h
  next => cases h
  next =>
    rcases List.mem_cons.mp h with rfl | hsent
    · rfl
    · exact origin_of_mem_send hsent

end EventLogger

namespace Host

open Device (AreGroups Description Identity Mac)
open Http (Delivery Request)
open Journal (Note)
open Settings (Config)

def announcementStart : String := "🔍 Discovered "

/-- The note is the host's line that says which panel was discovered. -/
def isAnnouncement (note : Note) : Bool :=
  note.event.origin = .host && announcementStart.toList.isPrefixOf note.event.message.toList

/-- A field in an announcement: its text, or what stands there for want of one. -/
inductive IsShownAs (placeholder : String) : Option String → String → Prop
  | present (text : String) : IsShownAs placeholder (some text) text
  | absent : IsShownAs placeholder none placeholder

inductive IsMacShownAs : Option Mac → String → Prop
  | present {mac : Mac} {text : String} :
      AreGroups mac.octets.toList text.toList → IsMacShownAs (some mac) text
  | absent : IsMacShownAs none "none"

/-- The note is the announcement of this panel. -/
structure Announces (identity : Identity) (note : Note) : Prop where
  span : note.span = none
  origin : note.event.origin = .host
  level : note.event.level = .info
  message : ∃ name model version serialNumber,
    IsShownAs "unnamed panel" identity.name name ∧
      IsShownAs "unknown model" identity.model model ∧
      IsShownAs "unknown" identity.version version ∧
      IsShownAs "unknown" identity.serialNumber serialNumber ∧
      note.event.message =
        s!"🔍 Discovered '{name}' ({model}, firmware {version}, serial {serialNumber})"
  fields : ∃ mac, IsMacShownAs identity.mac mac ∧
    note.event.fields =
      [("mac", .plain mac), ("encryption_mode", .number identity.encryptionMode.toInt)]

/-- The content of a file is text, and a capture of a message in which a panel describes itself. -/
def Identifies (explain : String → String) (content : Except Files.Failure Files.Content)
    (identity : Identity) : Prop :=
  ∃ octets text message, content = .ok octets ∧ Utf8.decode? octets = some text ∧
    Capture.Message.parse explain text = .ok message ∧ message.kind = some Device.descriptionKind ∧
      (⟨message.properties.store⟩ : Description).identity.result = identity

/--
A journal that a report can leave. The start is reported while the rest goes on, and a run that fails
does not wait for the end of that.
-/
def Report.IsJournal (report : Report) (journal : List Note) : Prop :=
  ∃ shown, shown <+: report.startNotes ∧
    (report.result = .ok () → shown = report.startNotes) ∧
      Interleaved report.notes shown journal

theorem Report.isJournal_journal (report : Report) : report.IsJournal report.journal := by
  refine ⟨report.startNotes, List.prefix_refl _, fun _ => rfl, ?_⟩
  have hwhole : report.notes.dropLast ++ report.notes.getLast?.toList = report.notes := by
    rcases List.eq_nil_or_concat report.notes with hnil | ⟨front, last, hconcat⟩
    · rw [hnil]
      rfl
    · simp [hconcat]
  have hbetween := Interleaved.between report.notes.dropLast report.startNotes
    report.notes.getLast?.toList
  rwa [hwhole] at hbetween

section Announcements

theorem isAnnouncement_of_origin {note : Note} (h : note.event.origin ≠ .host) :
    isAnnouncement note = false := by
  simp [isAnnouncement, h]

theorem isAnnouncement_warning {start : String} (hstart : start.toList.head? = some '⚠')
    (message : String) : isAnnouncement { event := warning (start ++ message) } = false := by
  obtain ⟨rest, hrest⟩ := List.head?_eq_some_iff.mp hstart
  rw [isAnnouncement, warning, String.toList_append, hrest]
  rfl

theorem isAnnouncement_info {message : String}
    (hmessage : announcementStart.toList.isPrefixOf message.toList = false)
    (fields : Journal.Fields) : isAnnouncement { event := info message fields } = false := by
  simp [isAnnouncement, info, hmessage]

theorem isAnnouncement_identityRead (identity : Identity) :
    isAnnouncement { event := identityRead identity } = false := by
  have hmessage : announcementStart.toList.isPrefixOf "Read device identity".toList = false := by
    decide
  simp only [isAnnouncement, identityRead, hmessage, Bool.and_false]

theorem isAnnouncement_discovered (identity : Identity) :
    isAnnouncement { event := discovered identity } = true := by
  have hmessage : announcementStart.toList <+: (discovered identity).message.toList := by
    simp only [discovered, info, String.toList_append, List.append_assoc]
    exact List.prefix_append _ _
  simp only [isAnnouncement, List.isPrefixOf_iff_prefix.mpr hmessage]
  rfl

theorem isShownAs_getD (placeholder : String) (field : Option String) :
    IsShownAs placeholder field (field.getD placeholder) := by
  cases field with
  | none => exact .absent
  | some text => exact .present text

theorem isMacShownAs_elim (mac : Option Mac) : IsMacShownAs mac (mac.elim "none" Mac.text) := by
  cases mac with
  | none => exact .absent
  | some mac => exact .present mac.areGroups_text

theorem announces_discovered (identity : Identity) :
    Announces identity { event := discovered identity } where
  span := rfl
  origin := rfl
  level := rfl
  message := ⟨_, _, _, _, isShownAs_getD _ _, isShownAs_getD _ _, isShownAs_getD _ _,
    isShownAs_getD _ _, rfl⟩
  fields := ⟨_, isMacShownAs_elim identity.mac, rfl⟩

/-- None of the notes within a span is the host's own. -/
theorem filter_notes_span {span : Journal.Span} {events : List Journal.Event}
    (h : ∀ event ∈ events, event.origin ≠ .host) :
    (span.notes events).filter isAnnouncement = [] := by
  rw [List.filter_eq_nil_iff]
  intro note hnote
  obtain ⟨event, hevent, rfl⟩ := List.mem_map.mp hnote
  have hnone : isAnnouncement { span := some span, event } = false :=
    isAnnouncement_of_origin (h event hevent)
  simp [hnone]

theorem isAnnouncement_notReported (explanation : String) (failure : EventLogger.Failure) :
    isAnnouncement { event := notReported explanation failure } = false :=
  isAnnouncement_warning (by decide) (failure.message explanation)

theorem isAnnouncement_startNotReported (explanation : String) (failure : EventLogger.Failure) :
    isAnnouncement { event := startNotReported explanation failure } = false :=
  isAnnouncement_warning (by decide) (failure.message explanation)

variable (surroundings : Surroundings) (url : String)

theorem filter_exchangeNotes (message : Event.Message) :
    ((EventLogger.exchangeSpan message).notes
      (EventLogger.exchange (surroundings.order message) surroundings.service url
        message).events).filter isAnnouncement = [] := by
  apply filter_notes_span
  intro event hevent
  rw [EventLogger.origin_of_mem_exchange hevent]
  decide

theorem filter_reportStart (start : Calendar.Instant) :
    (reportStart surroundings url start).1.filter isAnnouncement = [] := by
  have hspan := filter_exchangeNotes surroundings url
    (Event.programStarted programName programVersion start)
  delta reportStart
  generalize Event.programStarted programName programVersion start = message at hspan ⊢
  dsimp only
  cases (EventLogger.exchange (surroundings.order message) surroundings.service url
    message).result with
  | ok reply => exact hspan
  | error failure =>
      dsimp only
      rw [List.filter_append, hspan, List.nil_append]
      exact List.filter_cons_of_neg (by simp [isAnnouncement_startNotReported])

theorem filter_reportDevice (identity : Identity) :
    (reportDevice surroundings url identity).1.filter isAnnouncement = [] := by
  have hspan := filter_exchangeNotes surroundings url (Event.deviceDiscovered identity)
  delta reportDevice
  generalize Event.deviceDiscovered identity = message at hspan ⊢
  dsimp only
  cases (EventLogger.exchange (surroundings.order message) surroundings.service url
    message).result with
  | ok reply =>
      dsimp only
      rw [List.filter_append, hspan, List.nil_append]
      rfl
  | error failure =>
      dsimp only
      rw [List.filter_append, hspan, List.nil_append]
      exact List.filter_cons_of_neg (by simp [isAnnouncement_notReported])

end Announcements

theorem Identifies.unique {explain : String → String}
    {content : Except Files.Failure Files.Content} {identity other : Identity}
    (h : Identifies explain content identity) (hother : Identifies explain content other) :
    identity = other := by
  obtain ⟨octets, text, message, rfl, htext, hmessage, -, rfl⟩ := h
  obtain ⟨_, _, _, hcontent, htext', hmessage', -, rfl⟩ := hother
  obtain rfl := Except.ok.inj hcontent
  obtain rfl := Option.some.inj (htext.symm.trans htext')
  obtain rfl := Except.ok.inj (hmessage.symm.trans hmessage')
  rfl

/-- The ways in which the work on a capture ends, each with the announcements that are left. -/
inductive Identification (explain : String → String)
    (content : Except Files.Failure Files.Content) : Except Failure Identity × List Note → Prop
  | failed {failure : Failure} {notes : List Note} :
      (∀ identity, ¬ Identifies explain content identity) → notes.filter isAnnouncement = [] →
      Identification explain content (.error failure, notes)
  | identified {identity : Identity} {notes : List Note} {note : Note} :
      Identifies explain content identity → Announces identity note →
      notes.filter isAnnouncement = [note] → Identification explain content (.ok identity, notes)

section Loading

variable {explain : String → String} {path : String}
  {content : Except Files.Failure Files.Content}

theorem origin_of_mem_load {event : Journal.Event}
    (h : event ∈ (Capture.load explain path content).events) : event.origin = .loader := by
  rw [Capture.load] at h
  split at h
  next =>
    rw [List.mem_singleton.mp h]
    rfl
  next =>
    split at h
    all_goals
      simp only [List.mem_cons, List.not_mem_nil, or_false] at h
      rcases h with rfl | rfl
      · rfl
      · rfl

theorem result_load_eq_ok_iff {message : Capture.Message} :
    (Capture.load explain path content).result = .ok message ↔
      ∃ octets text, content = .ok octets ∧ Utf8.decode? octets = some text ∧
        Capture.Message.parse explain text = .ok message := by
  cases content with
  | error failure => simp [Capture.load, Capture.textOf]
  | ok octets =>
      cases htext : Utf8.decode? octets with
      | none => simp [Capture.load, Capture.textOf, htext]
      | some text =>
          cases hmessage : Capture.Message.parse explain text with
          | error error => simp [Capture.load, Capture.textOf, htext, hmessage]
          | ok found => simp [Capture.load, Capture.textOf, htext, hmessage]

end Loading

theorem ofMessage_eq_ok_iff {kind : Option String} {store : Property.Store}
    {description : Description} :
    Description.ofMessage kind store = .ok description ↔
      kind = some Device.descriptionKind ∧ description = ⟨store⟩ := by
  constructor
  · intro h
    refine ⟨?_, Description.eq_of_ofMessage h⟩
    cases kind with
    | none => cases h
    | some kind =>
        rw [Description.ofMessage] at h
        split at h
        next => cases h
        next =>
          split at h
          next hkind => rw [hkind]
          next => cases h
  · rintro ⟨rfl, rfl⟩
    rfl

theorem filter_loadNotes (explain : String → String) (path : String)
    (content : Except Files.Failure Files.Content) :
    ((Capture.loadSpan path).notes (Capture.load explain path content).events).filter
      isAnnouncement = [] := by
  apply filter_notes_span
  intro event hevent
  rw [origin_of_mem_load hevent]
  decide

theorem filter_identityNotes (description : Description) :
    (Journal.notes (description.identity.events ++
      [identityRead description.identity.result,
        discovered description.identity.result])).filter isAnnouncement =
      [{ event := discovered description.identity.result }] := by
  have hread : (Journal.notes description.identity.events).filter isAnnouncement = [] := by
    rw [List.filter_eq_nil_iff]
    intro note hnote
    obtain ⟨event, hevent, rfl⟩ := List.mem_map.mp hnote
    have horigin : event.origin ≠ .host := by
      have hevent : event ∈ (description.ask .identity).events := hevent
      rcases Description.isNotedAt_ask hevent with hnoted | hdescription
      · obtain ⟨kind, address, -, hmem⟩ := hnoted
        rw [Property.Store.origin_of_mem_read hmem]
        decide
      · rw [hdescription]
        decide
    have hnone : isAnnouncement { event } = false := isAnnouncement_of_origin horigin
    simp [hnone]
  simp only [Journal.notes, List.map_append, List.map_cons, List.map_nil, List.filter_append]
    at hread ⊢
  rw [hread, List.nil_append, List.filter_cons_of_neg (by simp [isAnnouncement_identityRead]),
    List.filter_cons_of_pos (isAnnouncement_discovered _), List.filter_nil]

theorem identification_identify (explain : String → String) (path : String)
    (content : Except Files.Failure Files.Content) :
    Identification explain content (identify explain path content) := by
  have hload := filter_loadNotes explain path content
  delta identify
  dsimp only
  split
  next failure hfailed =>
    refine .failed ?_ hload
    rintro identity ⟨octets, text, message, hcontent, htext, hmessage, -, -⟩
    have hok : (Capture.load explain path content).result = .ok message :=
      result_load_eq_ok_iff.mpr ⟨octets, text, hcontent, htext, hmessage⟩
    rw [hfailed] at hok
    cases hok
  next message hloaded =>
    obtain ⟨octets, text, hcontent, htext, hmessage⟩ := result_load_eq_ok_iff.mp hloaded
    split
    next failure hrefused =>
      refine .failed ?_ hload
      rintro identity ⟨octets', text', message', hcontent', htext', hmessage', hkind, -⟩
      obtain rfl := Except.ok.inj (hcontent.symm.trans hcontent')
      obtain rfl := Option.some.inj (htext.symm.trans htext')
      obtain rfl := Except.ok.inj (hmessage.symm.trans hmessage')
      have hok : Description.ofMessage message.kind message.properties.store =
          .ok ⟨message.properties.store⟩ :=
        ofMessage_eq_ok_iff.mpr ⟨hkind, rfl⟩
      rw [hrefused] at hok
      cases hok
    next description hdescribed =>
      obtain ⟨hkind, rfl⟩ := ofMessage_eq_ok_iff.mp hdescribed
      refine .identified ⟨octets, text, message, hcontent, htext, hmessage, hkind, rfl⟩
        (announces_discovered _) ?_
      rw [List.filter_append, hload, List.nil_append]
      exact filter_identityNotes _

section Run

variable {surroundings : Surroundings} {start : Calendar.Instant}
  {read : String → Except Files.Failure Files.Content} {config : Config}

theorem isAnnouncement_loggerNote (config : Config) :
    isAnnouncement (loggerNote config) = false := by
  rw [loggerNote]
  split
  next => exact isAnnouncement_info (by decide) _
  next => exact isAnnouncement_info (by decide) _

theorem filter_started (surroundings : Surroundings) (start : Calendar.Instant)
    (config : Config) :
    (if config.eventLogger.enabled = true then
      reportStart surroundings config.eventLogger.url start else ([], [])).1.filter isAnnouncement =
        [] := by
  split
  next => exact filter_reportStart _ _ _
  next => rfl

theorem filter_startNotes :
    (run surroundings start read (.ok config)).startNotes.filter isAnnouncement = [] := by
  delta run replay
  dsimp only
  split
  next => exact filter_started surroundings start config
  next => exact filter_started surroundings start config

theorem result_run :
    (run surroundings start read (.ok config)).result =
      (identify surroundings.explainCapture config.discovery.responseFile
        (read config.discovery.responseFile)).1.map fun _ => () := by
  delta run replay
  dsimp only
  split
  next failure hfailed => rw [hfailed]; rfl
  next identity hidentified => rw [hidentified]; rfl

/-- Of the notes of a run, those that are left by the work on the capture decide. -/
theorem filter_notes_run :
    (run surroundings start read (.ok config)).notes.filter isAnnouncement =
      (identify surroundings.explainCapture config.discovery.responseFile
        (read config.discovery.responseFile)).2.filter isAnnouncement := by
  have hopening : (Journal.notes [starting, configured]).filter isAnnouncement = [] := rfl
  have hending : (Journal.notes [done]).filter isAnnouncement = [] := rfl
  delta run replay
  dsimp only
  split
  next =>
    rw [List.filter_append, hopening, List.nil_append,
      List.filter_cons_of_neg (by simp [isAnnouncement_loggerNote])]
  next identity _ =>
    have hreported : (if config.eventLogger.enabled = true then
        reportDevice surroundings config.eventLogger.url identity
        else ([], [])).1.filter isAnnouncement = [] := by
      split
      next => exact filter_reportDevice _ _ _
      next => rfl
    rw [List.filter_append, hopening, List.nil_append, List.cons_append, List.cons_append,
      List.filter_cons_of_neg (by simp [isAnnouncement_loggerNote]), List.filter_append,
      List.filter_append, hreported, hending, List.append_nil, List.append_nil]

/-- Whatever is noted about the start, and whenever, is no announcement. -/
theorem Report.IsJournal.filter_eq {journal : List Note}
    (h : (run surroundings start read (.ok config)).IsJournal journal) :
    journal.filter isAnnouncement =
      (identify surroundings.explainCapture config.discovery.responseFile
        (read config.discovery.responseFile)).2.filter isAnnouncement := by
  obtain ⟨shown, hshown, -, hwhole⟩ := h
  have hstart : (run surroundings start read (.ok config)).startNotes.filter isAnnouncement = [] :=
    filter_startNotes
  have hnotes : (run surroundings start read (.ok config)).notes.filter isAnnouncement =
      (identify surroundings.explainCapture config.discovery.responseFile
        (read config.discovery.responseFile)).2.filter isAnnouncement :=
    filter_notes_run
  rw [← hnotes]
  apply hwhole.filter_eq
  intro note hnote
  exact Bool.eq_false_iff.mpr (List.filter_eq_nil_iff.mp hstart note (hshown.subset hnote))

end Run

/--
A run succeeds exactly if the captured file can be read as text, is a capture, and describes a panel;
then it announces this panel once, and otherwise none. Another logger, another service and another
start change nothing about this, whether reporting is enabled or not.
-/
theorem run_follows_capture_alone (read : String → Except Files.Failure Files.Content)
    (discovery : Settings.Discovery) (logger otherLogger : Settings.EventLogger)
    (surroundings otherSurroundings : Surroundings) (start otherStart : Calendar.Instant)
    (hreader : otherSurroundings.explainCapture = surroundings.explainCapture) :
    let content := read discovery.responseFile
    let report := run surroundings start read (.ok ⟨discovery, logger⟩)
    let other := run otherSurroundings otherStart read (.ok ⟨discovery, otherLogger⟩)
    (report.result = .ok () ↔
        ∃ identity, Identifies surroundings.explainCapture content identity) ∧
      other.result = report.result ∧
      ∀ journal, report.IsJournal journal →
        (∀ identity, Identifies surroundings.explainCapture content identity →
          ∃ note, Announces identity note ∧ journal.filter isAnnouncement = [note]) ∧
        ((∃ failure, report.result = .error failure) → journal.filter isAnnouncement = []) ∧
        ∀ otherJournal, other.IsJournal otherJournal →
          otherJournal.filter isAnnouncement = journal.filter isAnnouncement := by
  intro content report other
  have hends := identification_identify surroundings.explainCapture discovery.responseFile content
  have hresult : report.result =
      (identify surroundings.explainCapture discovery.responseFile content).1.map fun _ => () :=
    result_run
  have hother : other.result =
      (identify surroundings.explainCapture discovery.responseFile content).1.map fun _ => () :=
    hreader ▸ result_run
  have hjournals : ∀ journal, report.IsJournal journal → journal.filter isAnnouncement =
      (identify surroundings.explainCapture discovery.responseFile content).2.filter
        isAnnouncement :=
    fun _ hjournal => hjournal.filter_eq
  have hotherJournals : ∀ journal, other.IsJournal journal → journal.filter isAnnouncement =
      (identify surroundings.explainCapture discovery.responseFile content).2.filter
        isAnnouncement :=
    fun _ hjournal => hreader ▸ hjournal.filter_eq
  generalize identify surroundings.explainCapture discovery.responseFile content = found at *
  refine ⟨?_, hother.trans hresult.symm, fun journal hjournal => ⟨?_, ?_, ?_⟩⟩
  · cases hends with
    | failed hnone _ => simp [hresult, hnone, Except.map]
    | identified hidentity _ _ => simpa [hresult, Except.map] using ⟨_, hidentity⟩
  · intro identity hidentity
    cases hends with
    | failed hnone _ => exact absurd hidentity (hnone identity)
    | identified hfound hnote hannounced =>
        rw [hjournals journal hjournal]
        exact ⟨_, hfound.unique hidentity ▸ hnote, hannounced⟩
  · rintro ⟨failure, hfailure⟩
    cases hends with
    | failed _ hsilent => rw [hjournals journal hjournal, hsilent]
    | identified _ _ _ =>
        rw [hresult] at hfailure
        cases hfailure
  · intro otherJournal hotherJournal
    rw [hjournals journal hjournal, hotherJournals otherJournal hotherJournal]

/-- A panel whose name no report can carry. -/
def bellCapture : String :=
  "\x7b\"kind\": \"device.Description\", \"properties\": [" ++
    "\x7b\"name\": \"device.name\", \"value\": \x7b\"text\": \"\\u0007\"\x7d\x7d]\x7d"

def bellFile (path : String) : Except Files.Failure Files.Content :=
  if path = "bell.json" then .ok (Utf8.encode bellCapture) else .error .notFound

def bellIdentity : Identity where
  name := some "\x07"
  model := none
  version := none
  serialNumber := none
  mac := none
  encryptionMode := 0

def bellNote : Note where
  event := {
    origin := .host
    level := .info
    message := "🔍 Discovered '\x07' (unknown model, firmware unknown, serial unknown)"
    fields := [("mac", .plain "none"), ("encryption_mode", .number 0)] }

theorem Announces.eq_bellNote {note : Note} (h : Announces bellIdentity note) :
    note = bellNote := by
  obtain ⟨hspan, horigin, hlevel, ⟨_, _, _, _, hname, hmodel, hversion, hserial, hmessage⟩,
    ⟨_, hmac, hfields⟩⟩ := h
  obtain ⟨span, origin, level, message, fields⟩ := note
  cases hname
  cases hmodel
  cases hversion
  cases hserial
  cases hmac
  obtain rfl : span = none := hspan
  obtain rfl : origin = .host := horigin
  obtain rfl : level = .info := hlevel
  obtain rfl : message = _ := hmessage
  obtain rfl : fields = _ := hfields
  rfl

theorem identifies_bellFile :
    Identifies Capture.explainBriefly (bellFile "bell.json") bellIdentity := by
  have hdocument : Capture.Document.parse? bellCapture =
      some ⟨some "device.Description",
        [{ name := "device.name", value := some (.text "\x07") }]⟩ := by decide +kernel
  refine ⟨_, bellCapture, ⟨_, Property.Bag.empty.set ⟨Device.nameProperty, 0⟩ (.text "\x07")⟩, rfl,
    Utf8.decode?_encode _, ?_, rfl, rfl⟩
  rw [Capture.Message.parse, hdocument]
  rfl

/-- Nobody listens, or somebody listens and does not answer. -/
def deaf : Surroundings where
  service _ := .refused
  order _ := .alphabetical
  explainCapture := Capture.explainBriefly
  explainReply _ := ""

def mute : Surroundings :=
  { deaf with service := fun _ => .unanswered }

theorem run_follows_bellFile :
    let busy : Settings.EventLogger := ⟨true, "nowhere", ⟨5, 0⟩⟩
    let silent : Settings.EventLogger := ⟨false, "http://localhost/", ⟨1, 0⟩⟩
    let report := run deaf ⟨0, 0⟩ bellFile (.ok ⟨⟨"bell.json"⟩, busy⟩)
    let other := run mute ⟨9, 0⟩ bellFile (.ok ⟨⟨"bell.json"⟩, silent⟩)
    let missing := run deaf ⟨0, 0⟩ bellFile (.ok ⟨⟨"none.json"⟩, busy⟩)
    report.result = .ok () ∧ other.result = .ok () ∧
      report.journal.filter isAnnouncement = [bellNote] ∧
      other.journal.filter isAnnouncement = [bellNote] ∧
      missing.journal.filter isAnnouncement = [] := by
  intro busy silent report other missing
  obtain ⟨hresult, hother, hannounced⟩ := run_follows_capture_alone bellFile ⟨"bell.json"⟩ busy
    silent deaf mute ⟨0, 0⟩ ⟨9, 0⟩ rfl
  have hok : report.result = .ok () := hresult.mpr ⟨_, identifies_bellFile⟩
  obtain ⟨hidentified, -, hsame⟩ := hannounced _ report.isJournal_journal
  obtain ⟨-, -, hmissing⟩ := run_follows_capture_alone bellFile ⟨"none.json"⟩ busy silent
    deaf mute ⟨0, 0⟩ ⟨9, 0⟩ rfl
  have hfailed : missing.result = .error (.load (.file .notFound)) := rfl
  obtain ⟨note, hnote, hfilter⟩ := hidentified _ identifies_bellFile
  obtain rfl := hnote.eq_bellNote
  exact ⟨hok, hother.trans hok, hfilter, (hsame _ other.isJournal_journal).trans hfilter,
    (hmissing _ missing.isJournal_journal).2.1 ⟨_, hfailed⟩⟩

end Host

end PanelRelay
