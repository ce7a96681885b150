import PanelRelay.Capture.Load
import PanelRelay.Event.Report
import PanelRelay.EventLogger.Exchange
import PanelRelay.Settings.Config

/-!
The work of the host: it replays a captured description of a panel, says which panel it is, and
reports that to the event logger where one is enabled. Whether a report arrives makes no difference
to the outcome.
-/

namespace PanelRelay.Host

open Capture (LoadError)
open Device (Description DescriptionError Identity)
open Http (Delivery Request)
open Journal (Note)
open Settings (Config)

def programName : String := "panelgate"
def programVersion : String := "0.1.0"

inductive Failure where
  | settings (error : Settings.Error)
  | load (error : LoadError)
  | description (error : DescriptionError)
  deriving DecidableEq

def Failure.message : Failure → String
  | .settings error => error.message
  | .load error => error.message
  | .description error => error.message

def info (message : String) (fields : Journal.Fields) : Journal.Event where
  origin := .host
  level := .info
  message := message
  fields := fields

def warning (message : String) : Journal.Event where
  origin := .host
  level := .warn
  message := message

def starting : Journal.Event :=
  info s!"🪵 Starting {programName} v{programVersion}" []

def configured : Journal.Event :=
  info "✅  Loaded configuration" []

def loggerReady (url : String) : Journal.Event :=
  info "✅  Initialized event logger" [("url", .quoted url)]

def loggerDisabled : Journal.Event :=
  info "Event logger is disabled" []

def identityRead (identity : Identity) : Journal.Event where
  origin := .host
  level := .debug
  message := "Read device identity"
  fields := [("identity", .plain identity.json.compact)]

def discovered (identity : Identity) : Journal.Event :=
  let name := identity.name.getD "unnamed panel"
  let model := identity.model.getD "unknown model"
  let version := identity.version.getD "unknown"
  let serial := identity.serialNumber.getD "unknown"
  info s!"🔍 Discovered '{name}' ({model}, firmware {version}, serial {serial})"
    [("mac", .plain (identity.mac.elim "none" Device.Mac.text)),
      ("encryption_mode", .number identity.encryptionMode.toInt)]

def reported : Journal.Event :=
  info "✅  Reported discovered device" []

def notReported (explanation : String) (failure : EventLogger.Failure) : Journal.Event :=
  warning s!"⚠️ Unable to report discovered device: {failure.message explanation}"

def startNotReported (explanation : String) (failure : EventLogger.Failure) : Journal.Event :=
  warning s!"⚠️ Unable to report program start: {failure.message explanation}"

def done : Journal.Event :=
  info s!"🔥 {programName} is done" []

/-- What a run meets with, and what is settled neither by the program nor by its input. -/
structure Surroundings where
  service : Request → Delivery
  /-- Each message is sent with the namespaces of its envelope in an order of its own. -/
  order : Event.Message → Envelope.DeclarationOrder
  /-- What the reader of JSON says about a text that is no capture. -/
  explainCapture : String → String
  /-- What the reader of XML says about a reply that is not well-formed. -/
  explainReply : List UInt8 → String

structure Report where
  result : Except Failure Unit
  notes : List Note := []
  /-- The notes about reporting the start, which goes on at the same time as the rest. -/
  startNotes : List Note := []
  requests : List Request := []

/-- All notes in one order in which they can arise: those about the start before the last one. -/
def Report.journal (report : Report) : List Note :=
  report.notes.dropLast ++ report.startNotes ++ report.notes.getLast?.toList

def identify (explain : String → String) (path : String)
    (content : Except Files.Failure Files.Content) : Except Failure Identity × List Note :=
  let loaded := Capture.load explain path content
  let loadNotes := (Capture.loadSpan path).notes loaded.events
  match loaded.result with
  | .error error => (.error (.load error), loadNotes)
  | .ok message =>
      match Description.ofMessage message.kind message.properties.store with
      | .error error => (.error (.description error), loadNotes)
      | .ok description =>
          let identity := description.identity
          (.ok identity.result,
            loadNotes ++ Journal.notes
              (identity.events ++ [identityRead identity.result, discovered identity.result]))

def reportStart (surroundings : Surroundings) (url : String) (start : Calendar.Instant) :
    List Note × List Request :=
  let message := Event.programStarted programName programVersion start
  let outcome :=
    EventLogger.exchange (surroundings.order message) surroundings.service url message
  let notes := (EventLogger.exchangeSpan message).notes outcome.events
  match outcome.result with
  | .ok _ => (notes, outcome.requests)
  | .error failure =>
      let explanation := surroundings.explainReply outcome.reply
      (notes ++ Journal.notes [startNotReported explanation failure], outcome.requests)

def reportDevice (surroundings : Surroundings) (url : String) (identity : Identity) :
    List Note × List Request :=
  let message := Event.deviceDiscovered identity
  let outcome :=
    EventLogger.exchange (surroundings.order message) surroundings.service url message
  let notes := (EventLogger.exchangeSpan message).notes outcome.events
  match outcome.result with
  | .ok _ => (notes ++ Journal.notes [reported], outcome.requests)
  | .error failure =>
      let explanation := surroundings.explainReply outcome.reply
      (notes ++ Journal.notes [notReported explanation failure], outcome.requests)

def loggerNote (config : Config) : Note where
  event := if config.eventLogger.enabled then loggerReady config.eventLogger.url else loggerDisabled

def replay (surroundings : Surroundings) (start : Calendar.Instant) (config : Config)
    (content : Except Files.Failure Files.Content) : Report :=
  let url := config.eventLogger.url
  let (startNotes, startRequests) :=
    if config.eventLogger.enabled then reportStart surroundings url start else ([], [])
  let (identity, identityNotes) :=
    identify surroundings.explainCapture config.discovery.responseFile content
  match identity with
  | .error failure =>
      { result := .error failure
        notes := loggerNote config :: identityNotes
        startNotes, requests := startRequests }
  | .ok identity =>
      let (deviceNotes, deviceRequests) :=
        if config.eventLogger.enabled then reportDevice surroundings url identity else ([], [])
      { result := .ok ()
        notes := loggerNote config :: identityNotes ++ deviceNotes ++ Journal.notes [done]
        startNotes, requests := startRequests ++ deviceRequests }

def run (surroundings : Surroundings) (start : Calendar.Instant)
    (read : String → Except Files.Failure Files.Content)
    (config : Except Settings.Error Config) : Report :=
  match config with
  | .error error => { result := .error (.settings error), notes := Journal.notes [starting] }
  | .ok config =>
      let report := replay surroundings start config (read config.discovery.responseFile)
      { report with notes := Journal.notes [starting, configured] ++ report.notes }

end PanelRelay.Host
