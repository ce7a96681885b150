import PanelRelay.Host.Replay
import PanelRelay.Http.Wire
import Std.Async.DNS
import Std.Async.TCP
import Std.Async.Timer
import Std.Internal.UV.System
import Std.Time.DateTime.Timestamp

/-!
The program. It gathers what a run depends on (files, variables, the time), carries the requests of
the run to the event logger, and prints the lines of the journal.
-/

namespace PanelRelay.Program

open Http (Delivery Request Response Url)
open Std.Async (Async)
open Std.Async.TCP.Socket (Client)

/-- The number by which the system says that a step of a path leads through a file. -/
def notDirectoryCode : UInt32 := 20

def failureOf (error : IO.Error) : Files.Failure :=
  match error with
  | .inappropriateType _ code _ =>
      if code = notDirectoryCode then .notDirectory else .isDirectory
  | _ => .notFound

def readFile (path : String) : IO (Except Files.Failure Files.Content) := do
  if '\x00' ∈ path.toList then
    return .error .invalidInput
  try
    return .ok (← IO.FS.readBinFile path).toList
  catch error =>
    return .error (failureOf error)

def settingsFiles (formats : List Settings.Format) : IO Files.Directory := do
  let files ← (Settings.fileNames formats).mapM fun name => do
    return (name, ← readFile name)
  return files.filterMap fun file => file.2.toOption.map (file.1, ·)

def now : IO Calendar.Instant := do
  let time ← Std.Time.Timestamp.now
  return { seconds := time.toSecondsSinceUnixEpoch.val }

def socketAddress (address : Std.Net.IPAddr) (port : UInt16) : Std.Net.SocketAddress :=
  match address with
  | .v4 addr => .v4 { addr, port }
  | .v6 addr => .v6 { addr, port }

def portOf (url : Url) : Nat :=
  url.port.getD ((Url.usualPorts.lookup url.scheme).getD 0)

/-- The name or address to look up; brackets around an address are no part of it. -/
def lookupName (url : Url) : String :=
  String.ofList (url.host.filter fun c => c ≠ '[' && c ≠ ']')

def connect (url : Url) : Async Client := do
  let port := portOf url
  match (← Std.Async.DNS.getAddrInfo (lookupName url) (toString port)).toList with
  | [] => throw (IO.userError "the host has no address")
  | address :: _ =>
      let client ← Client.mk
      client.connect (socketAddress address (UInt16.ofNat port))
      return client

partial def receive (client : Client) (before : Files.Content) : Async Files.Content := do
  match ← client.recv? 65536 with
  | none => return before
  | some octets => receive client (before ++ octets.toList)

/-- What comes back for a request; a response that is cut off counts as none. -/
def carry (client : Client) (request : Request) : Async Delivery := do
  try
    client.send request.octets.toByteArray
    match Response.ofOctets? (← receive client []) with
    | some response => return .answered response
    | none => return .unanswered
  catch _ =>
    return .unanswered

def attempt (request : Request) : Async Delivery := do
  if request.url.scheme ≠ "http".toList then
    return .refused
  try
    carry (← connect request.url) request
  catch _ =>
    return .refused

def patience (timeout : Settings.Duration) : Std.Time.Millisecond.Offset :=
  .ofNat (min (timeout.seconds * 1000 + timeout.nanos / 1000000) 0x4000000000000000)

def giveUp (timeout : Settings.Duration) : Async Delivery := do
  Std.Async.sleep (patience timeout)
  return .unanswered

instance : Inhabited Delivery := ⟨.unanswered⟩

def deliver (timeout : Settings.Duration) (request : Request) : IO Delivery :=
  (Async.race (attempt request) (giveUp timeout)).block

/-- The readers' own words are not known here; one order of the namespaces is as good as another. -/
def surroundings (service : Request → Delivery) : Host.Surroundings where
  service := service
  order _ := .alphabetical
  explainCapture := Capture.explainBriefly
  explainReply _ := "the document is not well-formed"

/-- No request of a run depends on what became of another one, so a trial run tells them all. -/
def requestsOf (replay : (Request → Delivery) → Host.Report) : List Request :=
  (replay fun _ => .unanswered).requests

def perform (start : Calendar.Instant) (config : Except Settings.Error Settings.Config) :
    IO Host.Report := do
  match config with
  | .error _ =>
      return Host.run (surroundings fun _ => .refused) start (fun _ => .error .notFound) config
  | .ok settings =>
      let content ← readFile settings.discovery.responseFile
      let replay (service : Request → Delivery) :=
        Host.run (surroundings service) start (fun _ => content) config
      let deliveries ← (requestsOf replay).mapM fun request => do
        return (request.body, ← deliver settings.eventLogger.requestTimeout request)
      return replay fun request => (deliveries.lookup request.body).getD .unanswered

def run : IO UInt32 := do
  let environment ← Std.Internal.UV.System.osEnviron
  let convention := Settings.Convention.plain
  let files ← settingsFiles convention.formats
  let config := Settings.Config.load convention files environment.toList
  let report ← perform (← now) config
  for line in Journal.lines report.journal do
    IO.println line
  match report.result with
  | .ok () => return 0
  | .error failure =>
      IO.eprintln s!"Error: {failure.message}"
      return 1

end PanelRelay.Program

def main : IO UInt32 :=
  PanelRelay.Program.run
