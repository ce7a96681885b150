import PanelRelay.Http.Host

/-! URLs in normalised form, as they are requested and reported. -/

namespace PanelRelay.Http

structure Url where
  scheme : List Char
  host : List Char
  /-- Absent where it is the usual one of the scheme. -/
  port : Option Nat := none
  path : List Char
  query : Option (List Char) := none
  fragment : Option (List Char) := none
  deriving DecidableEq

inductive UrlError where
  | invalid
  | unsupported (text : String)
  deriving DecidableEq

namespace Url

def target (url : Url) : String :=
  String.ofList (url.path ++ url.query.elim [] ('?' :: ·))

def text (url : Url) : String :=
  String.ofList (url.scheme ++ "://".toList ++ url.host ++
    url.port.elim [] (fun port => ':' :: Decimal.ofNat port) ++ url.path ++
    url.query.elim [] ('?' :: ·) ++ url.fragment.elim [] ('#' :: ·))

/-- Schemes whose URLs name a host, with the port that goes without saying. -/
def usualPorts : List (List Char × Nat) :=
  [("http".toList, 80), ("https".toList, 443), ("ws".toList, 80), ("wss".toList, 443),
    ("ftp".toList, 21)]

def isSchemeChar (c : Char) : Bool :=
  c.isAlphanum || c = '+' || c = '-' || c = '.'

/-- Drops control characters and spaces around the text, and line breaks and tabs in it. -/
def cleaned (text : String) : List Char :=
  let outer := text.toList.dropWhile (· ≤ ' ')
  (outer.reverse.dropWhile (· ≤ ' ')).reverse.filter fun c => c ≠ '\t' && c ≠ '\n' && c ≠ '\r'

def takeScheme? (text : List Char) : Option (List Char × List Char) :=
  let scheme := text.takeWhile isSchemeChar
  match text.dropWhile isSchemeChar with
  | ':' :: rest =>
      if scheme.head?.any Char.isAlpha then some (scheme.map Char.toLower, rest) else none
  | _ => none

def isSlash (c : Char) : Bool :=
  c = '/' || c = '\\'

def endsAuthority (c : Char) : Bool :=
  isSlash c || c = '?' || c = '#'

/-- Host and port behind what identifies the user, which is not kept. -/
def withoutUser (authority : List Char) : List Char :=
  (authority.reverse.takeWhile (· ≠ '@')).reverse

/-- Host and port texts; a colon between brackets belongs to the host. -/
def splitPort (authority : List Char) : List Char × List Char :=
  match authority with
  | '[' :: _ =>
      let inner := authority.takeWhile (· ≠ ']')
      (authority.take (inner.length + 1), authority.drop (inner.length + 1))
  | _ => (authority.takeWhile (· ≠ ':'), authority.dropWhile (· ≠ ':'))

/-- A port behind its colon; a colon alone stands for none. -/
def port? (usual : Nat) : List Char → Option (Option Nat)
  | [] => some none
  | ':' :: [] => some none
  | ':' :: digits => do
      let port ← Decimal.natural? digits
      if port < 65536 then some (if port = usual then none else some port) else none
  | _ => none

def isSingleDot (segment : List Char) : Bool :=
  segment.map Char.toLower ∈ [".".toList, "%2e".toList]

def isDoubleDot (segment : List Char) : Bool :=
  segment.map Char.toLower ∈
    ["..".toList, ".%2e".toList, "%2e.".toList, "%2e%2e".toList]

/-- Resolves dot segments; `before` holds the segments so far, the latest first. -/
def resolve (before : List (List Char)) : List (List Char) → List (List Char)
  | [] => before.reverse
  | segment :: rest =>
      if isDoubleDot segment then
        resolve (if rest = [] then [] :: before.tail else before.tail) rest
      else if isSingleDot segment then resolve (if rest = [] then [] :: before else before) rest
      else resolve (percentEncode reservedInPath segment :: before) rest

def pathOf (text : List Char) : List Char :=
  let segments := splitAtAll isSlash (if text.head?.any isSlash then text.tail else text)
  '/' :: ['/'].intercalate (resolve [] segments)

def splitAtMark (mark : Char) (text : List Char) : List Char × Option (List Char) :=
  match text.dropWhile (· ≠ mark) with
  | [] => (text, none)
  | _ :: rest => (text.takeWhile (· ≠ mark), some rest)

def ofHostText? (scheme : List Char) (usual : Nat) (text : List Char) : Option Url := do
  let text := text.dropWhile isSlash
  let authority := withoutUser (text.takeWhile fun c => !endsAuthority c)
  let (hostText, portText) := splitPort authority
  let host ← host? hostText
  let port ← port? usual portText
  let (text, fragment) := splitAtMark '#' (text.dropWhile fun c => !endsAuthority c)
  let (path, query) := splitAtMark '?' text
  return {
    scheme, host, port
    path := pathOf path
    query := query.map (percentEncode reservedInQuery)
    fragment := fragment.map (percentEncode reservedInFragment) }

def parse (text : String) : Except UrlError Url :=
  match takeScheme? (cleaned text) with
  | none => .error .invalid
  | some (scheme, rest) =>
      match usualPorts.lookup scheme with
      | none => .error (.unsupported (String.ofList (scheme ++ ':' :: percentEncode [] rest)))
      | some usual =>
          match ofHostText? scheme usual rest with
          | none => .error .invalid
          | some url =>
              if scheme ∈ ["http".toList, "https".toList] then .ok url
              else .error (.unsupported url.text)

end Url

end PanelRelay.Http
