/-! A directory of files, and paths into it. -/

namespace PanelRelay.Files

inductive Failure where
  | notFound
  | isDirectory
  | notDirectory
  | invalidData
  | invalidInput
  deriving DecidableEq

def Failure.message : Failure → String
  | .notFound => "No such file or directory"
  | .isDirectory => "Is a directory"
  | .notDirectory => "Not a directory"
  | .invalidData => "stream did not contain valid UTF-8"
  | .invalidInput => "file name contained an unexpected NUL byte"

abbrev Content := List UInt8

/-- The files of a directory and of those below it, by their path from it. -/
abbrev Directory := List (String × Content)

/-- The steps of a path; empty ones and single dots count for what comes before them. -/
def steps (path : String) : List (List Char) :=
  (path.toList.splitBy fun a b => a ≠ '/' && b ≠ '/').filter fun step => step ≠ ['/']

def baseName? (path : String) : Option String :=
  match ((steps path).filter fun step => step ≠ ['.']).getLast? with
  | some step => if step = ['.', '.'] then none else some (String.ofList step)
  | none => none

inductive Place where
  | directory (path : List (List Char))
  | file (content : Content)
  | outside

def descend (directory : Directory) (here : List (List Char)) (step : List Char) :
    Except Failure Place :=
  let path := here ++ [step]
  match directory.find? fun file => steps file.1 = path with
  | some file => .ok (.file file.2)
  | none =>
      if directory.any fun file => path.isPrefixOf (steps file.1) then .ok (.directory path)
      else .error .notFound

def walk (directory : Directory) : Place → List (List Char) → Except Failure Place
  | place, [] => .ok place
  | .file _, _ :: _ => .error .notDirectory
  | .outside, step :: rest =>
      if step = ['.'] ∨ step = ['.', '.'] then walk directory .outside rest
      else .error .notFound
  | .directory here, step :: rest =>
      if step = ['.'] then walk directory (.directory here) rest
      else if step = ['.', '.'] then
        walk directory (if here = [] then .outside else .directory here.dropLast) rest
      else
        match descend directory here step with
        | .ok place => walk directory place rest
        | .error failure => .error failure

def read (directory : Directory) (path : String) : Except Failure Content :=
  if '\x00' ∈ path.toList then .error .invalidInput
  else if path = "" ∨ path.toList.head? = some '/' then .error .notFound
  else
    match walk directory (.directory []) (steps path) with
    | .error failure => .error failure
    | .ok (.file content) =>
        if path.toList.getLast? = some '/' then .error .notDirectory else .ok content
    | .ok (.directory _) => .error .isDirectory
    | .ok .outside => .error .isDirectory

/-- The path of a directory's own file; an absolute path stays as it is. -/
def inside (path : String) : String :=
  if path.toList.head? = some '/' then path else "./" ++ path

def find? (directory : Directory) (name : String) : Option Content :=
  directory.lookup name

end PanelRelay.Files
