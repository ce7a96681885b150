import PanelRelay.Capture.Message
import PanelRelay.Files
import PanelRelay.Text.Utf8

/-! Loading a captured message from a file, such as one recorded from a panel on site. -/

namespace PanelRelay.Capture

open Journal (Event)

inductive LoadError where
  | file (failure : Files.Failure)
  | capture (error : Error)
  deriving DecidableEq

def LoadError.message : LoadError → String
  | .file failure => failure.message
  | .capture error => error.message

def loadEvent (level : Journal.Level) (message : String) : Event where
  origin := .loader
  level := level
  message := message

def loading : Event :=
  loadEvent .info "📁 Loading captured response..."

def loaded (size : Nat) : Event :=
  loadEvent .info s!"📁 Loading captured response... OK, {size} properties"

def failedToLoad (path : String) (error : Error) : Event :=
  let name := (Files.baseName? path).getD "unknown"
  loadEvent .warn s!"⚠️ Failed to load '{name}': {error.message}"

/-- A file that is no text counts as unreadable. -/
def textOf (content : Except Files.Failure Files.Content) : Except Files.Failure String :=
  match content with
  | .error failure => .error failure
  | .ok content =>
      match Utf8.decode? content with
      | none => .error .invalidData
      | some text => .ok text

def load (explain : String → String) (path : String)
    (content : Except Files.Failure Files.Content) : Noted (Except LoadError Message) :=
  match textOf content with
  | .error failure => ⟨.error (.file failure), [loading]⟩
  | .ok text =>
      match Message.parse explain text with
      | .error error => ⟨.error (.capture error), [loading, failedToLoad path error]⟩
      | .ok message => ⟨.ok message, [loading, loaded message.properties.size]⟩

def loadSpan (path : String) : Journal.Span where
  name := "load_message_from"
  fields := [("path", .plain path)]

end PanelRelay.Capture
