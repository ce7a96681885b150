import PanelRelay.Envelope.Reply
import PanelRelay.Envelope.Request
import PanelRelay.EventLogger.Failure
import PanelRelay.Journal

/-!
One exchange with the event logger: a message goes out, and the service sends it back. A message that
cannot be encoded is never sent. A fault in the reply counts whatever the status; apart from that,
only a successful status makes a reply worth reading.
-/

namespace PanelRelay.EventLogger

open Event (Message)
open Http (Delivery Request Response Url)

def exchangeEvent (level : Journal.Level) (message : String) : Journal.Event where
  origin := .exchange
  level := level
  message := message

def sending (url : String) : Journal.Event :=
  exchangeEvent .debug s!"📨 Sending log message to {url}..."

def confirmed : Journal.Event :=
  exchangeEvent .debug "📨 Sending log message... OK"

def refusal (status : Http.Status) (message : String) : Journal.Event where
  origin := .exchange
  level := .warn
  message := message
  fields := [("status_code", .plain status.text)]

def faultReturned (status : Http.Status) (code text : String) : Journal.Event :=
  refusal status s!"⚠️ Event logger returned a fault: event logger fault {code}: {text}"

def requestFailed (status : Http.Status) : Journal.Event :=
  refusal status "⚠️ Event logger request failed"

def readReply (body : List UInt8) : Except Failure Message :=
  (Envelope.decode body).mapError Failure.ofReply

def conclude (response : Response) : Noted (Except Failure Message) :=
  let reply := readReply response.body
  if response.status.isSuccess then
    match reply with
    | .ok message => ⟨.ok message, [confirmed]⟩
    | .error failure => ⟨.error failure, []⟩
  else
    match reply with
    | .error (.fault code text) =>
        ⟨.error (.fault code text), [faultReturned response.status code text]⟩
    | _ => ⟨.error (.rejected response.status), [requestFailed response.status]⟩

/-- The operation is dispatched on the body, so the action stays empty. -/
def headers : List (String × String) :=
  [("content-type", "text/xml; charset=utf-8"), ("soapaction", "\"\"")]

def requestOf (url : Url) (body : String) : Request where
  method := "POST"
  url := url
  headers := headers
  body := body

structure Outcome where
  requests : List Request := []
  /-- The body of the reply, where there is one. -/
  reply : List UInt8 := []
  result : Except Failure Message
  events : List Journal.Event := []

/-- Sends an encoded message; `service` says what becomes of a request. -/
def send (service : Request → Delivery) (url : String) (body : String) : Outcome :=
  match Url.parse url with
  | .error error => { result := .error (.request (.badUrl error)) }
  | .ok url =>
      let request := requestOf url body
      match service request with
      | .refused => { result := .error (.request (.refused url)) }
      | .unanswered => { requests := [request], result := .error (.request (.timeout url)) }
      | .answered response =>
          let conclusion := conclude response
          { requests := [request], reply := response.body, result := conclusion.result,
            events := conclusion.events }

def exchange (order : Envelope.DeclarationOrder) (service : Request → Delivery) (url : String)
    (message : Message) : Outcome :=
  match Envelope.encode order message with
  | .error error => { result := .error (.envelope error) }
  | .ok body =>
      let outcome := send service url body
      { outcome with events := sending url :: outcome.events }

def exchangeSpan (message : Message) : Journal.Span where
  name := "log_message"
  fields :=
    [("operation", .plain (message.name.elim "None" fun name => s!"Some({quote name})"))]

end PanelRelay.EventLogger
