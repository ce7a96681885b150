import PanelRelay.Http.Status
import PanelRelay.Http.Url

/-! Requests and responses. -/

namespace PanelRelay.Http

structure Request where
  method : String
  url : Url
  headers : List (String × String)
  body : String

structure Response where
  status : Status
  body : List UInt8

/-- What a client makes of a response: these two statuses end with their head. -/
def Response.received (status : Status) (body : List UInt8) : Response where
  status := status
  body := if status.code = 204 ∨ status.code = 304 then [] else body

inductive Delivery where
  | refused
  | unanswered
  | answered (response : Response)

end PanelRelay.Http
