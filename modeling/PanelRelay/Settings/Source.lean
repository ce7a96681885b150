import PanelRelay.Files
import PanelRelay.Settings.Error
import PanelRelay.Settings.Format
import PanelRelay.Text.Replace
import PanelRelay.Text.Utf8

/-!
Where settings come from: a required file, an optional one, and the environment. What a later source
sets counts over what an earlier one does. Which formats files can have, and in which order the
entries of one source are taken, is left open.
-/

namespace PanelRelay.Settings

inductive Origin where
  | required
  | optional
  | environment

/--
What may be otherwise in the next run: the formats that are known, in the order in which they are
tried, and the order in which the entries of a source are taken.
-/
structure Convention where
  formats : List Format
  arrange : Origin → Members → Members
  perm : ∀ origin source, (arrange origin source).Perm source

/-- Every source in the order in which it is written, and no formats but these two. -/
def Convention.plain : Convention where
  formats := [.toml, .json]
  arrange _ source := source
  perm _ source := .refl source

/-- The text of a file, without the mark that may stand at its start. -/
def textOfFile (content : Files.Content) : List Char :=
  Utf8.dropMark (Utf8.decodeLossy content)

/-- A file by its name without the ending; one that has no ending hides those that have. -/
def find? (formats : List Format) (directory : Files.Directory) (name : String) :
    Option (Format × Files.Content) :=
  if (Files.find? directory name).isSome then none
  else formats.findSome? fun format =>
    (Files.find? directory (format.fileName name)).map (format, ·)

def readFile (format : Format) (content : Files.Content) : Except Error Members :=
  (format.read (textOfFile content)).mapError .malformedFile

def required (formats : List Format) (directory : Files.Directory) (name : String) :
    Except Error Members :=
  match find? formats directory name with
  | some (format, content) => readFile format content
  | none => .error (.noFile name)

def optional (formats : List Format) (directory : Files.Directory) (name : String) :
    Except Error Members :=
  match find? formats directory name with
  | some (format, content) => readFile format content
  | none => .ok []

abbrev Environment := List (String × String)

def variablePrefix : String := "panelgate__"

/-- The place that a variable sets. Only ASCII letters make up the names that count. -/
def variableKey? (name : String) : Option String :=
  let name := name.toList.map Char.toLower
  if variablePrefix.toList.isPrefixOf name then
    some (String.ofList
      (replaceAll ['_', '_'] ['.'] (name.drop variablePrefix.length)))
  else none

/-- Of the variables for one place the last counts. -/
def putVariable (members : Members) (entry : String × String) : Members :=
  match variableKey? entry.1 with
  | some key => put key (.text entry.2) members
  | none => members

def ofEnvironment (environment : Environment) : Members :=
  environment.foldl putVariable []

/-- What a source sets goes over what is there. -/
def layer (members source : Members) : Members :=
  source.foldl (fun members setting => store members setting.1 setting.2) members

def requiredName : String := "config"
def optionalName : String := "config_local"

/-- The names under which files of these formats are looked for. -/
def fileNames (formats : List Format) : List String :=
  [requiredName, optionalName].flatMap fun name => name :: formats.map (·.fileName name)

/-- The sources one over the other, the entries of each in the order that the convention has. -/
def layers (convention : Convention) (base site environment : Members) : Members :=
  layer
    (layer (layer [] (convention.arrange .required base)) (convention.arrange .optional site))
    (convention.arrange .environment environment)

def gather (convention : Convention) (directory : Files.Directory) (environment : Environment) :
    Except Error Members := do
  let base ← required convention.formats directory requiredName
  let site ← optional convention.formats directory optionalName
  return layers convention base site (ofEnvironment environment)

end PanelRelay.Settings
