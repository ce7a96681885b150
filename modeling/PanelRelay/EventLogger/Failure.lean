import PanelRelay.Envelope.Error
import PanelRelay.Http.Message

/-! Why a message could not be logged. -/

namespace PanelRelay.EventLogger

inductive RequestError where
  | badUrl (error : Http.UrlError)
  | refused (url : Http.Url)
  | timeout (url : Http.Url)
  deriving DecidableEq

def RequestError.message : RequestError → String
  | .badUrl .invalid => "builder error"
  | .badUrl (.unsupported text) => s!"builder error for url ({text})"
  | .refused url => s!"error sending request for url ({url.text})"
  | .timeout url => s!"error sending request for url ({url.text})"

inductive Failure where
  | request (error : RequestError)
  | envelope (error : Envelope.Error)
  | fault (code text : String)
  | rejected (status : Http.Status)
  deriving DecidableEq

namespace Failure

/-- `explanation` is what the reader of XML says about a reply that is not well-formed. -/
def message (explanation : String) : Failure → String
  | .request error => s!"request error: {error.message}"
  | .envelope error => s!"invalid SOAP message: {error.message explanation}"
  | .fault code text => s!"event logger fault {code}: {text}"
  | .rejected status => s!"event logger responded with status {status.text}"

/-- A fault in a reply is told apart from a reply that makes no sense. -/
def ofReply : Envelope.Error → Failure
  | .fault code text => .fault code text
  | error => .envelope error

end Failure

end PanelRelay.EventLogger
