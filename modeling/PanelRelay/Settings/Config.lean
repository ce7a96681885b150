import PanelRelay.Settings.Duration
import PanelRelay.Settings.Source

/-!
The settings of the program. A section is a table of its fields, or a list of them in order. What is
there is checked before what is missing.
-/

namespace PanelRelay.Settings

structure Discovery where
  responseFile : String
  deriving DecidableEq

structure EventLogger where
  enabled : Bool
  url : String
  requestTimeout : Duration
  deriving DecidableEq

structure Config where
  discovery : Discovery
  eventLogger : EventLogger
  deriving DecidableEq

def asText (key : String) (value : Value) : Except Error String :=
  match value.asText? with
  | some text => .ok text
  | none => .error (.unsuitable key "a string")

def asBool (key : String) (value : Value) : Except Error Bool :=
  match value.asBool? with
  | some decision => .ok decision
  | none => .error (.unsuitable key "a boolean")

def asDuration (key : String) (value : Value) : Except Error Duration := do
  let text ← asText key value
  match Duration.parse? text with
  | some duration => return duration
  | none =>
      throw (.invalid key s!"invalid value: string {quote text}, expected a duration")

def ifPresent {α : Type} (check : Value → Except Error α) :
    Option Value → Except Error (Option α)
  | none => .ok none
  | some value => (check value).map some

def orMissing {α : Type} (key : String) : Option α → Except Error α
  | none => .error (.missing key)
  | some a => .ok a

def tooShort (key shape : String) (size : Nat) : Error :=
  .invalid key s!"invalid length {size}, expected {shape}"

def wrongType (key shape : String) (value : Value) : Error :=
  .invalid key s!"invalid type: {value.description}, expected {shape}"

/-- The key of the element of a section that is a list. -/
def elementKey (key : String) (index : Nat) : String :=
  s!"{key}[{index}]"

def Discovery.ofValue (key : String) : Value → Except Error Discovery
  | .table members => do
      let fileKey := key ++ ".response_file"
      let file ← ifPresent (asText fileKey) (members.lookup "response_file")
      return { responseFile := ← orMissing fileKey file }
  | .array (file :: _) => do
      return { responseFile := ← asText (elementKey key 0) file }
  | .array [] => .error (tooShort key "struct Discovery with 1 element" 0)
  | value => .error (wrongType key "struct Discovery" value)

def EventLogger.shape : String := "struct EventLoggerConfig with 3 elements"

def EventLogger.ofElements (key : String) : List Value → Except Error EventLogger
  | [] => .error (tooShort key EventLogger.shape 0)
  | [enabled] => do
      let _ ← asBool (elementKey key 0) enabled
      throw (tooShort key EventLogger.shape 1)
  | [enabled, url] => do
      let _ ← asBool (elementKey key 0) enabled
      let _ ← asText (elementKey key 1) url
      throw (tooShort key EventLogger.shape 2)
  | enabled :: url :: timeout :: _ => do
      let enabled ← asBool (elementKey key 0) enabled
      let url ← asText (elementKey key 1) url
      let requestTimeout ← asDuration (elementKey key 2) timeout
      return { enabled, url, requestTimeout }

def EventLogger.ofMembers (key : String) (members : Members) : Except Error EventLogger := do
  let enabledKey := key ++ ".enabled"
  let urlKey := key ++ ".url"
  let timeoutKey := key ++ ".request_timeout"
  let enabled ← ifPresent (asBool enabledKey) (members.lookup "enabled")
  let url ← ifPresent (asText urlKey) (members.lookup "url")
  let requestTimeout ← ifPresent (asDuration timeoutKey) (members.lookup "request_timeout")
  return {
    enabled := ← orMissing enabledKey enabled
    url := ← orMissing urlKey url
    requestTimeout := ← orMissing timeoutKey requestTimeout }

def EventLogger.ofValue (key : String) : Value → Except Error EventLogger
  | .table members => EventLogger.ofMembers key members
  | .array elements => EventLogger.ofElements key elements
  | value => .error (wrongType key "struct EventLoggerConfig" value)

namespace Config

def ofMembers (members : Members) : Except Error Config := do
  let discovery ← ifPresent (Discovery.ofValue "discovery") (members.lookup "discovery")
  let eventLogger ← ifPresent (EventLogger.ofValue "event_logger") (members.lookup "event_logger")
  return {
    discovery := ← orMissing "discovery" discovery
    eventLogger := ← orMissing "event_logger" eventLogger }

def load (convention : Convention) (directory : Files.Directory) (environment : Environment) :
    Except Error Config := do
  ofMembers (← gather convention directory environment)

end Config

end PanelRelay.Settings
