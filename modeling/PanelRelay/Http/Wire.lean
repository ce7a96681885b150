import PanelRelay.Http.Message
import PanelRelay.Text.Radix

/-!
Requests and responses as the octets of a connection that carries one exchange. A response ends
where its head says so, or else with the connection.
-/

namespace PanelRelay.Http

def Url.authority (url : Url) : String :=
  String.ofList (url.host ++ url.port.elim [] fun port => ':' :: Decimal.ofNat port)

def Request.allHeaders (request : Request) : List (String × String) :=
  request.headers ++
    [("accept", "*/*"), ("host", request.url.authority),
      ("content-length", toString (Utf8.encode request.body).length), ("connection", "close")]

def Request.octets (request : Request) : List UInt8 :=
  let first := s!"{request.method} {request.url.target} HTTP/1.1"
  let lines := request.allHeaders.map fun header => s!"{header.1}: {header.2}"
  Utf8.encode ("\r\n".intercalate (first :: lines) ++ "\r\n\r\n" ++ request.body)

def splitHead? : List UInt8 → Option (List UInt8 × List UInt8)
  | [] => none
  | 13 :: 10 :: 13 :: 10 :: body => some ([], body)
  | octet :: octets => (splitHead? octets).map fun (head, body) => (octet :: head, body)

def characters (octets : List UInt8) : List Char :=
  octets.map fun octet => Char.ofNat octet.toNat

def isAroundValue (c : Char) : Bool :=
  c = ' ' || c = '\t' || c = '\r'

def trimmed (text : List Char) : List Char :=
  ((text.dropWhile isAroundValue).reverse.dropWhile isAroundValue).reverse

def header (line : List Char) : String × String :=
  (String.ofList ((line.takeWhile (· ≠ ':')).map Char.toLower),
    String.ofList (trimmed ((line.dropWhile (· ≠ ':')).drop 1)))

def statusOf? (line : List Char) : Option Status :=
  match splitAtAll (· = ' ') (trimmed line) with
  | version :: code :: _ =>
      if "HTTP/1.".toList.isPrefixOf version ∧ code.length = 3 then
        (Decimal.natural? code).map Status.mk
      else none
  | _ => none

/-- The part of a body behind the line with its size, and the octets after it. -/
def takeChunk? (octets : List UInt8) : Option (List UInt8 × List UInt8) := do
  let line := characters (octets.takeWhile (· ≠ 10))
  let size ← numeral? 16 (trimmed (line.takeWhile (· ≠ ';')))
  let rest := (octets.dropWhile (· ≠ 10)).drop 1
  if rest.length < size then none
  else some (rest.take size, rest.drop (size + 2))

def joinChunks? (octets : List UInt8) : Option (List UInt8) :=
  match takeChunk? octets with
  | none => none
  | some ([], _) => some []
  | some (chunk, rest) =>
      if rest.length < octets.length then (joinChunks? rest).map (chunk ++ ·) else none
termination_by octets.length

def bodyOf? (headers : List (String × String)) (octets : List UInt8) : Option (List UInt8) :=
  match headers.lookup "transfer-encoding", headers.lookup "content-length" with
  | some coding, _ => if coding.toLower = "chunked" then joinChunks? octets else none
  | none, some text => do
      let size ← Decimal.natural? text.toList
      if octets.length < size then none else some (octets.take size)
  | none, none => some octets

def Response.ofOctets? (octets : List UInt8) : Option Response := do
  let (head, rest) ← splitHead? octets
  match splitAtAll (· = '\n') (characters head) with
  | [] => none
  | first :: lines =>
      let status ← statusOf? first
      return .received status (← bodyOf? (lines.map header) rest)

end PanelRelay.Http
