/-! Why settings cannot be used. -/

namespace PanelRelay.Settings

inductive Error where
  /-- The required file is missing, or its format cannot be told from its name. -/
  | noFile (name : String)
  /-- What the reader of a file's format has to say about the text. -/
  | malformedFile (explanation : String)
  | missing (key : String)
  | unsuitable (key expected : String)
  | invalid (key message : String)
  deriving DecidableEq

def Error.message : Error → String
  | .noFile name => s!"configuration file \"{name}\" not found"
  | .malformedFile explanation => explanation
  | .missing key => s!"missing configuration field \"{key}\""
  | .unsuitable key expected => s!"invalid type, expected {expected} for key \x60{key}\x60"
  | .invalid key message => s!"{message} for key \x60{key}\x60"

end PanelRelay.Settings
