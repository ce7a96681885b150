import PanelRelay.EventLogger.Exchange
import PanelRelay.Proofs.Xml.Lookup
import PanelRelay.Proofs.Xml.Plain

/-!
How an exchange ends. The one request of an exchange posts the encoding of the message. Of a reply
that is received only its status class and what its body decodes to matter: a fault counts under
every status, everything else only under a successful one.
-/

namespace PanelRelay

theorem Http.Status.isSuccess_iff (status : Http.Status) :
    status.isSuccess = true ↔ status.code / 100 = 2 := by
  simp only [Http.Status.isSuccess, Bool.and_eq_true, decide_eq_true_eq]
  omega

namespace EventLogger

open Event (Message)
open Http (Delivery Request Response Url)

variable {response : Response}

/-- Everything that a response can lead to. -/
inductive Conclusion (response : Response) : Noted (Except Failure Message) → Prop
  | echoed {message : Message} :
      response.status.code / 100 = 2 → Envelope.decode response.body = .ok message →
      Conclusion response ⟨.ok message, [confirmed]⟩
  | senseless {error : Envelope.Error} :
      response.status.code / 100 = 2 → Envelope.decode response.body = .error error →
      (∀ code text, error ≠ .fault code text) →
      Conclusion response ⟨.error (.envelope error), []⟩
  | faulted {code text : String} :
      response.status.code / 100 = 2 →
      Envelope.decode response.body = .error (.fault code text) →
      Conclusion response ⟨.error (.fault code text), []⟩
  | refusedByFault {code text : String} :
      response.status.code / 100 ≠ 2 →
      Envelope.decode response.body = .error (.fault code text) →
      Conclusion response
        ⟨.error (.fault code text), [faultReturned response.status code text]⟩
  | refused :
      response.status.code / 100 ≠ 2 →
      (∀ code text, Envelope.decode response.body ≠ .error (.fault code text)) →
      Conclusion response ⟨.error (.rejected response.status), [requestFailed response.status]⟩

theorem ofReply_eq_fault_iff (error : Envelope.Error) (code text : String) :
    Failure.ofReply error = .fault code text ↔ error = .fault code text := by
  cases error <;> simp [Failure.ofReply]

theorem ofReply_of_not_fault {error : Envelope.Error} (h : ∀ code text, error ≠ .fault code text) :
    Failure.ofReply error = .envelope error := by
  cases error with
  | fault code text => exact absurd rfl (h code text)
  | _ => rfl

theorem readReply_of_ok {body : List UInt8} {message : Message}
    (h : Envelope.decode body = .ok message) : readReply body = .ok message := by
  rw [readReply, h]
  rfl

theorem readReply_of_error {body : List UInt8} {error : Envelope.Error}
    (h : Envelope.decode body = .error error) :
    readReply body = .error (Failure.ofReply error) := by
  rw [readReply, h]
  rfl

theorem readReply_eq_fault_iff (body : List UInt8) (code text : String) :
    readReply body = .error (.fault code text) ↔
      Envelope.decode body = .error (.fault code text) := by
  cases hreply : Envelope.decode body with
  | ok message => simp [readReply_of_ok hreply]
  | error error => simp [readReply_of_error hreply, ofReply_eq_fault_iff]

/-- An event that says that the exchange went well. -/
structure Confirms (event : Journal.Event) : Prop where
  level : event.level = .debug
  message : event.message = "📨 Sending log message... OK"

theorem confirms_confirmed : Confirms confirmed :=
  ⟨rfl, rfl⟩

theorem not_confirms_refusal (status : Http.Status) (message : String) :
    ¬ Confirms (refusal status message) := by
  intro h
  cases h.level

/-- The first note of an exchange cannot be taken for the last one of a good exchange. -/
theorem not_confirms_sending (url : String) : ¬ Confirms (sending url) := by
  intro h
  have hmessage := congrArg (fun message => message.toList[22]?) h.message
  simp only [sending, exchangeEvent, String.toList_append, List.append_assoc] at hmessage
  rw [List.getElem?_append_left (by decide)] at hmessage
  revert hmessage
  decide

theorem conclude_of_success (hsuccess : response.status.code / 100 = 2) :
    Conclusion response (conclude response) := by
  rw [conclude, if_pos ((Http.Status.isSuccess_iff _).mpr hsuccess)]
  cases hreply : Envelope.decode response.body with
  | ok message =>
      rw [readReply_of_ok hreply]
      exact .echoed hsuccess hreply
  | error error =>
      by_cases hfault : ∃ code text, error = .fault code text
      · obtain ⟨code, text, rfl⟩ := hfault
        rw [(readReply_eq_fault_iff response.body code text).mpr hreply]
        exact .faulted hsuccess hreply
      · simp only [not_exists] at hfault
        rw [readReply_of_error hreply, ofReply_of_not_fault hfault]
        exact .senseless hsuccess hreply hfault

theorem conclude_of_refusal (hrefusal : response.status.code / 100 ≠ 2) :
    Conclusion response (conclude response) := by
  rw [conclude, if_neg (mt (Http.Status.isSuccess_iff _).mp hrefusal)]
  split
  next code text hfault =>
    exact .refusedByFault hrefusal ((readReply_eq_fault_iff response.body code text).mp hfault)
  next hother =>
    refine .refused hrefusal fun code text hreply => ?_
    exact hother code text ((readReply_eq_fault_iff response.body code text).mpr hreply)

theorem conclusion_conclude (response : Response) : Conclusion response (conclude response) := by
  by_cases hsuccess : response.status.code / 100 = 2
  · exact conclude_of_success hsuccess
  · exact conclude_of_refusal hsuccess

namespace Conclusion

variable {noted : Noted (Except Failure Message)} (h : Conclusion response noted)

include h

theorem result_eq_ok_iff (reply : Message) :
    noted.result = .ok reply ↔
      response.status.code / 100 = 2 ∧ Envelope.decode response.body = .ok reply := by
  cases h with
  | echoed hsuccess hreply => simp [hsuccess, hreply]
  | senseless _ hreply _ => simp [hreply]
  | faulted _ hreply => simp [hreply]
  | refusedByFault hrefusal _ => simp [hrefusal]
  | refused hrefusal _ => simp [hrefusal]

theorem result_eq_fault_iff (code text : String) :
    noted.result = .error (.fault code text) ↔
      Envelope.decode response.body = .error (.fault code text) := by
  cases h with
  | echoed _ hreply => simp [hreply]
  | senseless _ hreply hother => simp [hreply, hother]
  | faulted _ hreply => simp [hreply]
  | refusedByFault _ hreply => simp [hreply]
  | refused _ hother => simp [hother]

theorem result_eq_rejected_iff (status : Http.Status) :
    noted.result = .error (.rejected status) ↔
      status = response.status ∧ response.status.code / 100 ≠ 2 ∧
        ∀ code text, Envelope.decode response.body ≠ .error (.fault code text) := by
  cases h with
  | echoed hsuccess _ => simp [hsuccess]
  | senseless hsuccess _ _ => simp [hsuccess]
  | faulted hsuccess _ => simp [hsuccess]
  | refusedByFault _ hreply => simp [hreply]
  | refused hrefusal hother => simp [hrefusal, hother, eq_comm]

theorem result_eq_envelope_iff (error : Envelope.Error) :
    noted.result = .error (.envelope error) ↔
      response.status.code / 100 = 2 ∧ Envelope.decode response.body = .error error ∧
        ∀ code text, error ≠ .fault code text := by
  cases h with
  | echoed _ hreply => simp [hreply]
  | senseless hsuccess hreply hother =>
      simp only [hsuccess, hreply, Except.error.injEq, Failure.envelope.injEq, true_and]
      constructor
      · rintro rfl
        exact ⟨rfl, hother⟩
      · exact And.left
  | faulted _ hreply =>
      simp only [hreply, Except.error.injEq, reduceCtorEq, false_iff]
      rintro ⟨-, rfl, hother⟩
      exact hother _ _ rfl
  | refusedByFault hrefusal _ => simp [hrefusal]
  | refused hrefusal _ => simp [hrefusal]

theorem countP_warn :
    (noted.events.countP fun event => event.level = .warn) =
      if response.status.code / 100 = 2 then 0 else 1 := by
  cases h with
  | echoed hsuccess _ =>
      rw [if_pos hsuccess]
      rfl
  | senseless hsuccess _ _ =>
      rw [if_pos hsuccess]
      rfl
  | faulted hsuccess _ =>
      rw [if_pos hsuccess]
      rfl
  | refusedByFault hrefusal _ =>
      rw [if_neg hrefusal]
      rfl
  | refused hrefusal _ =>
      rw [if_neg hrefusal]
      rfl

/-- The note of a good exchange is its last one, and no other exchange leaves it. -/
theorem exists_confirms_iff :
    (∃ event ∈ noted.events, Confirms event) ↔ ∃ reply, noted.result = .ok reply := by
  cases h with
  | echoed _ _ => simp [confirms_confirmed]
  | senseless _ _ _ => simp
  | faulted _ _ => simp
  | refusedByFault _ _ => simp [not_confirms_refusal, faultReturned]
  | refused _ _ => simp [not_confirms_refusal, requestFailed]

theorem getLast?_confirms_iff {first : Journal.Event} (hfirst : ¬ Confirms first) :
    (∃ event, (first :: noted.events).getLast? = some event ∧ Confirms event) ↔
      ∃ event ∈ noted.events, Confirms event := by
  cases h with
  | echoed _ _ => simp
  | senseless _ _ _ => simpa using hfirst
  | faulted _ _ => simpa using hfirst
  | refusedByFault _ _ => simp
  | refused _ _ => simp

end Conclusion

/-- A request that posts a text to a URL, as an XML document and under an empty action. -/
structure IsPost (url : Url) (body : String) (request : Request) : Prop where
  method : request.method = "POST"
  url : request.url = url
  headers : request.headers =
    [("content-type", "text/xml; charset=utf-8"), ("soapaction", "\"\"")]
  body : request.body = body

theorem isPost_iff {url : Url} {body : String} {request : Request} :
    IsPost url body request ↔ request = requestOf url body := by
  constructor
  · rintro ⟨hmethod, hurl, hheaders, hbody⟩
    obtain ⟨method, target, headers, content⟩ := request
    obtain rfl : method = "POST" := hmethod
    obtain rfl : target = url := hurl
    obtain rfl : content = body := hbody
    exact congrArg (Request.mk "POST" target · content) hheaders
  · rintro rfl
    exact ⟨rfl, rfl, rfl, rfl⟩

section Exchange

variable {order : Envelope.DeclarationOrder} {service : Request → Delivery} {address : String}
  {message : Message}

theorem exchange_of_unsendable {error : Envelope.Error}
    (h : Envelope.encode order message = .error error) :
    exchange order service address message = { result := .error (.envelope error) } := by
  rw [exchange, h]

theorem exchange_of_answered {body : String} {url : Url}
    (hencode : Envelope.encode order message = .ok body) (hurl : Url.parse address = .ok url)
    (hservice : service (requestOf url body) = .answered response) :
    exchange order service address message =
      { requests := [requestOf url body], reply := response.body,
        result := (conclude response).result,
        events := sending address :: (conclude response).events } := by
  rw [exchange, hencode]
  simp only [send, hurl, hservice]

end Exchange

/--
A message that cannot be encoded is not sent. Otherwise its encoding is posted; where this is
answered, it is posted once, and what becomes of the message is told by the status class and by what
the body of the reply decodes to. There is one warning exactly if the status is no success, and the
exchange is confirmed exactly if it has a message.
-/
theorem exchange_reports_the_reply (order : Envelope.DeclarationOrder)
    (service : Request → Delivery) (address : String) (message : Message) :
    (∀ error, Envelope.encode order message = .error error →
      (exchange order service address message).result = .error (.envelope error) ∧
        (exchange order service address message).requests = [] ∧
        (exchange order service address message).events = []) ∧
      ∀ body url request response, Envelope.encode order message = .ok body →
        Url.parse address = .ok url → IsPost url body request →
        service request = .answered response →
        let outcome := exchange order service address message
        outcome.requests = [request] ∧
        (∀ reply, outcome.result = .ok reply ↔
          response.status.code / 100 = 2 ∧ Envelope.decode response.body = .ok reply) ∧
        (∀ code text, outcome.result = .error (.fault code text) ↔
          Envelope.decode response.body = .error (.fault code text)) ∧
        (∀ status, outcome.result = .error (.rejected status) ↔
          status = response.status ∧ response.status.code / 100 ≠ 2 ∧
            ∀ code text, Envelope.decode response.body ≠ .error (.fault code text)) ∧
        (∀ error, outcome.result = .error (.envelope error) ↔
          response.status.code / 100 = 2 ∧ Envelope.decode response.body = .error error ∧
            ∀ code text, error ≠ .fault code text) ∧
        (outcome.events.countP fun event => event.level = .warn) =
          (if response.status.code / 100 = 2 then 0 else 1) ∧
        ((∃ event, outcome.events.getLast? = some event ∧ Confirms event) ↔
          ∃ reply, outcome.result = .ok reply) ∧
        ((∃ event ∈ outcome.events, Confirms event) ↔ ∃ reply, outcome.result = .ok reply) := by
  refine ⟨?_, ?_⟩
  · intro error hencode
    rw [exchange_of_unsendable hencode]
    exact ⟨rfl, rfl, rfl⟩
  · intro body url request response hencode hurl hpost hservice
    obtain rfl := isPost_iff.mp hpost
    rw [exchange_of_answered hencode hurl hservice]
    have hends := conclusion_conclude response
    have hsending := not_confirms_sending address
    refine ⟨rfl, hends.result_eq_ok_iff, hends.result_eq_fault_iff,
      hends.result_eq_rejected_iff, hends.result_eq_envelope_iff, ?_, ?_, ?_⟩
    · rw [List.countP_cons_of_neg (by simp [sending, exchangeEvent]), hends.countP_warn]
    · rw [hends.getLast?_confirms_iff hsending, hends.exists_confirms_iff]
    · simp only [List.mem_cons, exists_eq_or_imp]
      rw [or_iff_right hsending, hends.exists_confirms_iff]

section FaultReply

open Xml (bareElement tagged)

def faultReply : List Char :=
  tagged "Envelope" (tagged "Body" (tagged "Fault"
    (tagged "faultcode" "c:Server".toList ++ tagged "faultstring" " down ".toList)))

theorem decode_faultReply :
    Envelope.decode (Utf8.encode (String.ofList faultReply)) =
      .error (.fault "c:Server" "down") := by
  have hparse : Xml.Element.parse? (Utf8.encode (String.ofList faultReply)) =
      some (bareElement "Envelope" [(bareElement "Body" [(bareElement "Fault"
        [(bareElement "faultcode" [.text "c:Server"]).node,
          (bareElement "faultstring" [.text " down "]).node]).node]).node]) :=
    Xml.parse?_of_plainRoot? (by decide +kernel) (by decide +kernel) (by decide +kernel)
  rw [Envelope.decode, hparse]
  rfl

/-- A service whose every answer is a fault, under a status that says otherwise. -/
def faultyService : Request → Delivery :=
  fun _ => .answered { status := ⟨200⟩, body := Utf8.encode (String.ofList faultReply) }

def loggerUrl : Url where
  scheme := "http".toList
  host := "localhost".toList
  port := some 8080
  path := "/eventlogger".toList

theorem exchange_reports_faultReply :
    let outcome := exchange .alphabetical faultyService "http://localhost:8080/eventlogger" {}
    let unsent := exchange .alphabetical faultyService "http://localhost:8080/eventlogger"
      { name := some "\x07" }
    (∃ body request, Envelope.encode .alphabetical {} = .ok body ∧ IsPost loggerUrl body request ∧
        outcome.requests = [request]) ∧
      outcome.result = .error (.fault "c:Server" "down") ∧
      (outcome.events.countP fun event => event.level = .warn) = 0 ∧
      (¬ ∃ event ∈ outcome.events, Confirms event) ∧
      unsent.requests = [] := by
  intro outcome unsent
  have hsend : ∃ body, Envelope.encode .alphabetical {} = .ok body := ⟨_, rfl⟩
  have hurl : Url.parse "http://localhost:8080/eventlogger" = .ok loggerUrl := rfl
  have hreject : Envelope.encode .alphabetical { name := some "\x07" } =
      .error (.invalidValue "name" "\\u\x7b7\x7d") := rfl
  obtain ⟨body, hbody⟩ := hsend
  have hpost : IsPost loggerUrl body (requestOf loggerUrl body) := isPost_iff.mpr rfl
  obtain ⟨hrequests, -, hfault, -, -, hwarn, -, hconfirmed⟩ :=
    (exchange_reports_the_reply .alphabetical faultyService "http://localhost:8080/eventlogger"
      {}).2 _ _ _ _ hbody hurl hpost rfl
  have hresult := (hfault "c:Server" "down").mpr decode_faultReply
  have hunsent := (exchange_reports_the_reply .alphabetical faultyService
    "http://localhost:8080/eventlogger" { name := some "\x07" }).1 _ hreject
  refine ⟨⟨body, _, hbody, hpost, hrequests⟩, hresult, hwarn, ?_, hunsent.2.1⟩
  rw [hconfirmed]
  rintro ⟨reply, hreply⟩
  exact absurd (hreply.symm.trans hresult) (by simp)

end FaultReply

end EventLogger

end PanelRelay
