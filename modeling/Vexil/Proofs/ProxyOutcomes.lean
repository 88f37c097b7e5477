import Vexil.Web.Proxy

/-!
# What the console learns through the proxy

An answer of the API server goes through two texts: the proxy decodes the body
and encodes it again, and the browser decodes what comes. The reply is built
inside the `try` of the call, so whatever building it throws is reported as a
server that could not be reached. It throws for an answer without a body, since
the proxy gives it one, the empty text; the answer to a deletion is of that
kind.

`isResolved_request_iff` is the client alone, `proxyRequest_of_answered` and
`proxyRequest_of_nullBody` the proxy alone. An answer is reported faithfully if
its status is that of a response with a body and the body is text
(`proxy_outcomes`).
-/

namespace Vexil.Web

open Vexil.Lib

/-- The status of an answer that is not one of the redirects that `fetch`
follows. -/
def IsFinal (status : Nat) : Prop :=
  200 ≤ status ∧ status ≤ 599 ∧ status ∉ [301, 302, 303, 307, 308]

instance (status : Nat) : Decidable (IsFinal status) :=
  inferInstanceAs (Decidable (_ ∧ _))

section
variable {printing : Printing} {parse : String → Option JsonValue}

def IsJSON (parse : String → Option JsonValue) (body : List UInt8) : Prop :=
  (parse (Utf8.decode body)).isSome

/-- The answers for which a call of the client is to resolve. -/
def Succeeds (parse : String → Option JsonValue) (response : HttpResponse) :
    Prop :=
  response.status = 204 ∨
    (200 ≤ response.status ∧ response.status ≤ 299) ∧ IsJSON parse response.body

/-! ## The client -/

theorem json_eq_ok_iff {res : HttpResponse} :
    (∃ value, res.json parse = .ok value) ↔ IsJSON parse res.body := by
  unfold HttpResponse.json IsJSON
  cases parse (Utf8.decode res.body) with
  | none => simp
  | some value => simp

/-- A call resolves for the responses it is to resolve for, whoever sent
them. -/
theorem isResolved_request_iff {window : Option Browser} {statusText : String}
    {res : HttpResponse} :
    (request printing parse window statusText res).1.IsResolved ↔
      Succeeds parse res := by
  unfold request Succeeds
  split
  · next h =>
      refine iff_of_false id ?_
      omega
  split
  · next hok =>
      refine iff_of_false id ?_
      rintro (h | h)
      · omega
      · exact hok h.1
  split
  · next h => exact iff_of_true trivial (.inl h)
  · next hok h =>
      rw [← json_eq_ok_iff]
      cases hjson : res.json parse with
      | ok value =>
          exact iff_of_true trivial (.inr ⟨not_not.mp hok, value, rfl⟩)
      | error error =>
          refine iff_of_false id ?_
          rintro (h' | ⟨_, value, hvalue⟩)
          · exact h h'
          · cases hvalue

/-! ## The proxy -/

variable {vexilApiURL : Option String} {backend : BackendRequest → Exchange}
  {req : RouteRequest} {response : HttpResponse}

theorem relay_answered (h : IsFinal response.status) :
    relay (.answered response) =
      if response.status ∈ nullBodyStatuses then .error .typeError
      else .ok {
        status := response.status
        contentType :=
          some (Js.orElse (response.contentType.getD "") "application/json")
        body := Utf8.encode (Utf8.decode response.body) } := by
  have hrange : ¬ (response.status < 200 ∨ 599 < response.status) := by
    obtain ⟨hlow, hhigh, _⟩ := h
    omega
  rw [relay, newResponse, if_neg hrange]

theorem proxyRequest_of_answered
    (hanswer : backend (req.forwarded vexilApiURL) = .answered response)
    (hfinal : IsFinal response.status)
    (hbody : response.status ∉ nullBodyStatuses) :
    (proxyRequest vexilApiURL backend req).status = response.status ∧
      (proxyRequest vexilApiURL backend req).body =
        Utf8.encode (Utf8.decode response.body) := by
  rw [proxyRequest, hanswer, relay_answered hfinal, if_neg hbody]
  exact ⟨rfl, rfl⟩

/-- An answer without a body is reported as none at all. -/
theorem proxyRequest_of_nullBody
    (hanswer : backend (req.forwarded vexilApiURL) = .answered response)
    (hfinal : IsFinal response.status)
    (hnull : response.status ∈ nullBodyStatuses) :
    proxyRequest vexilApiURL backend req = gatewayError := by
  rw [proxyRequest, hanswer, relay_answered hfinal, if_pos hnull]

theorem proxyRequest_of_unanswered
    (h : ∀ response, backend (req.forwarded vexilApiURL) ≠ .answered response) :
    proxyRequest vexilApiURL backend req = gatewayError := by
  rw [proxyRequest]
  cases hexchange : backend (req.forwarded vexilApiURL) with
  | unreachable => rfl
  | interrupted => rfl
  | answered response => exact absurd hexchange (h response)

theorem gatewayError_status_not_mem :
    gatewayError.status ∉ nullBodyStatuses := by decide

/-! ## The two together -/

/-- An answer comes through as it was given: the proxy has no error of its own,
its reply has the status and the body, and the client resolves if it is to. -/
structure Faithful (printing : Printing) (parse : String → Option JsonValue)
    (window : Option Browser) (statusText : String)
    (response reply : HttpResponse) : Prop where
  relayed : (relay (.answered response)).isOk = true
  status : reply.status = response.status
  body : reply.body = response.body
  resolves : (request printing parse window statusText reply).1.IsResolved ↔
    Succeeds parse response

/-- An answer is reported faithfully exactly if its status is that of a response
with a body and its body is text, and the proxy has the error of its own for
every call without an answer. -/
theorem proxy_outcomes (vexilApiURL : Option String)
    (backend : BackendRequest → Exchange) (req : RouteRequest)
    (window : Option Browser) (statusText : String) :
    (∀ response, backend (req.forwarded vexilApiURL) = .answered response →
      IsFinal response.status →
      (Faithful printing parse window statusText response
          (proxyRequest vexilApiURL backend req) ↔
        response.status ∉ nullBodyStatuses ∧ Utf8.IsText response.body)) ∧
    ((∀ response, backend (req.forwarded vexilApiURL) ≠ .answered response) →
      proxyRequest vexilApiURL backend req = gatewayError) := by
  refine ⟨fun response hanswer hfinal => ?_, proxyRequest_of_unanswered⟩
  refine ⟨fun h => ?_, fun h => ?_⟩
  · have hbody : response.status ∉ nullBodyStatuses := by
      intro hnull
      have hstatus := h.status
      rw [proxyRequest_of_nullBody hanswer hfinal hnull] at hstatus
      exact gatewayError_status_not_mem (hstatus ▸ hnull)
    have hsent := (proxyRequest_of_answered hanswer hfinal hbody).2
    exact ⟨hbody, Utf8.encode_decode_iff.mp (hsent.symm.trans h.body)⟩
  · obtain ⟨hbody, htext⟩ := h
    obtain ⟨hstatus, hsent⟩ := proxyRequest_of_answered hanswer hfinal hbody
    rw [Utf8.encode_decode_iff.mpr htext] at hsent
    refine ⟨?_, hstatus, hsent, ?_⟩
    · rw [relay_answered hfinal, if_neg hbody]
      rfl
    · rw [isResolved_request_iff, Succeeds, hstatus, hsent]
      rfl

/-- No deletion resolves that the API server answers with 204. -/
theorem not_resolved_of_noContent {window : Option Browser}
    {statusText : String}
    (hanswer : backend (req.forwarded vexilApiURL) = .answered response)
    (hstatus : response.status = 204) :
    ¬ (request printing parse window statusText
      (proxyRequest vexilApiURL backend req)).1.IsResolved := by
  have hfinal : IsFinal response.status := by
    rw [hstatus]
    decide
  have hnull : response.status ∈ nullBodyStatuses := by
    rw [hstatus]
    decide
  rw [isResolved_request_iff, proxyRequest_of_nullBody hanswer hfinal hnull]
  rintro (h | ⟨⟨_, h⟩, _⟩)
  · exact absurd h (by decide)
  · exact absurd h (by decide)

end

/-! ## Two calls -/

/-- Of texts only `[]` is JSON. -/
def parseEmptyArray (text : String) : Option JsonValue :=
  if text = "[]" then some (.array []) else none

def plainPrinting : Printing where
  jsNumber := id
  pyNumber := some
  isPrintable := fun _ => false

def listFlags : RouteRequest where
  path := ["flags"]
  method := "GET"

def deleteFlag : RouteRequest where
  path := ["flags", "default", "dark-mode"]
  search := "?clusterId=local"
  method := "DELETE"

def noContent : HttpResponse where
  status := 204

def noFlags : HttpResponse where
  status := 200
  contentType := some "application/json"
  body := Utf8.encode "[]"

theorem proxy_outcomes_listFlags :
    Faithful plainPrinting parseEmptyArray (some { href := "/" }) "OK" noFlags
      (proxyRequest none (fun _ => .answered noFlags) listFlags) :=
  ((proxy_outcomes none (fun _ => .answered noFlags) listFlags
    (some { href := "/" }) "OK").1 noFlags rfl (by decide)).mpr
      ⟨by decide, "[]", rfl, by decide⟩

/-- A flag that was deleted is reported as a server out of reach. -/
theorem proxy_unfaithful_deleteFlag :
    proxyRequest none (fun _ => .answered noContent) deleteFlag =
      gatewayError ∧
    ¬ ∀ (backend : BackendRequest → Exchange) (req : RouteRequest)
      (response : HttpResponse),
      backend (req.forwarded none) = .answered response →
      IsFinal response.status →
      Faithful plainPrinting parseEmptyArray none "" response
        (proxyRequest none backend req) := by
  have hreply : proxyRequest none (fun _ => .answered noContent) deleteFlag =
      gatewayError := by decide +kernel
  refine ⟨hreply, fun hall => ?_⟩
  have hstatus := (hall (fun _ => .answered noContent) deleteFlag noContent rfl
    (by decide)).status
  rw [hreply] at hstatus
  exact absurd hstatus (by decide)

end Vexil.Web
