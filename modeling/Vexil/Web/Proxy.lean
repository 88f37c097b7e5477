import Vexil.Lib.Js
import Vexil.Lib.JsonValue
import Vexil.Lib.Utf8

/-!
# The proxy of the console

`app/api/v1/[...path]/route.ts`, which passes a request on to the API server,
and `request` of `api-client.ts`, which reads the reply in the browser. A body
is its bytes on the way; both sides read it as text.

The `try` of the proxy has three things in it that can throw: the call itself,
reading the body, and building the reply. What `JSON.parse` makes of a text is
left open, as is how a number is printed.
-/

namespace Vexil.Web

open Vexil.Lib

structure HttpResponse where
  status : Nat
  contentType : Option String := none
  body : List UInt8 := []
  deriving DecidableEq

/-! ## The route -/

/-- What the route is called with: the request, and the segments that
`[...path]` has taken from its path. -/
structure RouteRequest where
  path : List String
  search : String := ""
  method : String
  authorization : Option String := none
  body : List UInt8 := []

/-- What `fetch` is called with. -/
structure BackendRequest where
  url : String
  method : String
  headers : List (String × String)
  body : Option String
  deriving DecidableEq

/-- What comes of it. -/
inductive Exchange where
  /-- `fetch` rejects. -/
  | unreachable
  /-- The body does not come to its end. -/
  | interrupted
  | answered (response : HttpResponse)

/-- `process.env.VEXIL_API_URL` or the default. -/
def getBackendUrl (vexilApiURL : Option String) : String :=
  Js.orElse (vexilApiURL.getD "") "http://localhost:8090"

def RouteRequest.headers (request : RouteRequest) : List (String × String) :=
  let authorization := (request.authorization.filter (· ≠ "")).toList.map
    fun authHeader => ("Authorization", authHeader)
  ("Content-Type", "application/json") :: authorization

/-- The request that is sent to the API server. -/
def RouteRequest.forwarded (vexilApiURL : Option String)
    (request : RouteRequest) : BackendRequest where
  url := getBackendUrl vexilApiURL ++ "/api/v1/" ++
    String.intercalate "/" request.path ++ request.search
  method := request.method
  headers := request.headers
  body :=
    if request.method = "GET" ∨ request.method = "HEAD" then none
    else Js.orUndefined (Utf8.decode request.body)

inductive Thrown where
  | rangeError
  | typeError
  | syntaxError
  | error (message : JsonText)
  deriving DecidableEq

/-- The statuses of a response without a body. -/
def nullBodyStatuses : List Nat := [101, 103, 204, 205, 304]

/-- `new Response(body, { status, headers })`; a text is a body also when it is
empty. -/
def newResponse (body : Option String) (status : Nat) (contentType : String) :
    Except Thrown HttpResponse :=
  if status < 200 ∨ 599 < status then .error .rangeError
  else
    match body with
    | none => .ok { status := status, contentType := some contentType }
    | some text =>
        if status ∈ nullBodyStatuses then .error .typeError
        else .ok {
          status := status
          contentType := some contentType
          body := Utf8.encode text }

/-- The response of the `catch`. -/
def gatewayError : HttpResponse where
  status := 502
  contentType := some "application/json"
  body := Utf8.encode "\x7b\"error\":\"Failed to connect to API server\"\x7d"

/-- The `try` of `proxyRequest`. -/
def relay (exchange : Exchange) : Except Thrown HttpResponse :=
  match exchange with
  | .unreachable => .error .typeError
  | .interrupted => .error .typeError
  | .answered response =>
      newResponse (some (Utf8.decode response.body)) response.status
        (Js.orElse (response.contentType.getD "") "application/json")

/-- `proxyRequest`, against an API server that answers with `backend`. -/
def proxyRequest (vexilApiURL : Option String)
    (backend : BackendRequest → Exchange) (request : RouteRequest) :
    HttpResponse :=
  match relay (backend (request.forwarded vexilApiURL)) with
  | .ok response => response
  | .error _ => gatewayError

/-! ## The client -/

/-- What a tab keeps of the session. -/
structure Browser where
  token : Option String := none
  user : Option String := none
  href : String
  deriving DecidableEq

inductive Settled where
  /-- With nothing if it is `undefined`. -/
  | resolved (value : Option JsonValue)
  | rejected (error : Thrown)

def Settled.IsResolved : Settled → Prop
  | .resolved _ => True
  | .rejected _ => False

section
variable (printing : Printing) (parse : String → Option JsonValue)

/-- `res.json()`. -/
def HttpResponse.json (res : HttpResponse) : Except Thrown JsonValue :=
  match parse (Utf8.decode res.body) with
  | some value => .ok value
  | none => .error .syntaxError

/-- `new Error(error.error || 'Request failed')`. -/
def requestFailed (error : JsonValue) : Thrown :=
  let failed := JsonText.ofString "Request failed"
  match error with
  | .null => .typeError
  | .object members =>
      match member members (.ofString "error") with
      | none => .error failed
      | some message =>
          if Js.truthy printing message then
            match Js.string printing message with
            | some text => .error text
            | none => .typeError
          else .error failed
  | _ => .error failed

/-- What `request` throws for a response that is not ok. -/
def requestError (statusText : String) (res : HttpResponse) : Thrown :=
  match res.json parse with
  | .ok error => requestFailed printing error
  | .error _ => requestFailed printing (.object
      [(.ofString "error", .string (.ofString statusText))])

/-- `request`, once `fetch` has given a response; there is no `window` on the
server. -/
def request (window : Option Browser) (statusText : String)
    (res : HttpResponse) : Settled × Option Browser :=
  if res.status = 401 ∧ window.isSome then
    (.rejected (.error (.ofString "Unauthorized")), some { href := "/login" })
  else if ¬ (200 ≤ res.status ∧ res.status ≤ 299) then
    (.rejected (requestError printing parse statusText res), window)
  else if res.status = 204 then (.resolved none, window)
  else
    match res.json parse with
    | .ok value => (.resolved (some value), window)
    | .error error => (.rejected error, window)

end

end Vexil.Web
