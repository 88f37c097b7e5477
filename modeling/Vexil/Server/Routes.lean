import Vexil.Server.Auth
import Vexil.Server.Flags
import Vexil.Server.Workloads

/-!
# The server

`server.go` and `middleware.go`: the route table, and what a request passes
through before it gets to a handler. A request is answered by `CORS` if it is an
`OPTIONS` request, is let through `Auth` without a token on two paths, is looked
up in the table, and may still be refused by the role its route asks for.

`Logger` and `Recovery` add nothing to what a request does and are left out: no
handler here panics. The configured origins are a variable.
-/

namespace Vexil.Server

open Vexil.Lib Vexil.Kube

/-! ## Middleware -/

/-- `RequireRole`. -/
def requireRole (roles : List String) (next : Handler) : Handler :=
  fun r ctx pathValue =>
    if ctx.role ∈ roles then next r ctx pathValue
    else .ret (writeError 403 "insufficient permissions")

/-- The requests `Auth` lets pass without a token. -/
def skipsAuth (r : Request) : Bool :=
  r.method = "OPTIONS" ∨
  (r.url.path = "/healthz" ∧ r.method = "GET") ∨
  (r.url.path = "/api/v1/auth/login" ∧ r.method = "POST")

/-- `Auth`, around the rest of the server. -/
def auth (next : Request → UserContext → ServerProg Response) (r : Request) :
    ServerProg Response :=
  if skipsAuth r then next r {}
  else
    let token := extractBearerToken r
    if token = "" then .ret unauthorized
    else
      .call (.store (.getSession token)) fun
        | none => .ret unauthorized
        | some (username, role) => next r ⟨username, role⟩

/-- The headers `CORS` sets on every response. -/
def corsHeaders (allowedOrigins origin : String) : List (String × String) :=
  let allowed := (split allowedOrigins ',').any fun allowed =>
    trimSpace allowed = "*" ∨ trimSpace allowed = origin
  (if allowed then [("Access-Control-Allow-Origin", origin)] else []) ++
    [("Access-Control-Allow-Methods", "GET, POST, PUT, DELETE, OPTIONS"),
      ("Access-Control-Allow-Headers", "Content-Type, Authorization"),
      ("Access-Control-Max-Age", "86400")]

/-- `CORS`. -/
def cors (allowedOrigins : String) (next : Request → ServerProg Response)
    (r : Request) : ServerProg Response :=
  let headers := corsHeaders allowedOrigins r.origin
  if r.method = "OPTIONS" then .ret { status := 204, headers := headers }
  else (next r).map fun resp => { resp with headers := headers ++ resp.headers }

/-! ## The route table -/

def healthz : Handler := fun _ _ _ =>
  .ret { status := 200, body := .text "ok" }

def adminOnly : List String := ["admin"]

def editorUp : List String := ["admin", "editor"]

/-- `/api/v1/…`. -/
def api (rest : List Segment) : List Segment := .lit "api" :: .lit "v1" :: rest

section
variable [Apimachinery] [Bcrypt]

def routes : List (Route Handler) := [
  ⟨"POST", api [.lit "auth", .lit "login"], AuthHandler.login⟩,
  ⟨"POST", api [.lit "auth", .lit "logout"], AuthHandler.logout⟩,
  ⟨"GET", api [.lit "auth", .lit "me"], AuthHandler.me⟩,

  ⟨"GET", api [.lit "users"], AuthHandler.listUsers⟩,
  ⟨"POST", api [.lit "users"],
    requireRole adminOnly AuthHandler.createUser⟩,
  ⟨"PUT", api [.lit "users", .wild "username"], AuthHandler.updateUser⟩,
  ⟨"DELETE", api [.lit "users", .wild "username"],
    requireRole adminOnly AuthHandler.deleteUser⟩,

  ⟨"GET", api [.lit "flags"], FlagHandler.list⟩,
  ⟨"POST", api [.lit "flags"], requireRole editorUp FlagHandler.create⟩,
  ⟨"GET", api [.lit "flags", .wild "namespace", .wild "name"],
    FlagHandler.get⟩,
  ⟨"PUT", api [.lit "flags", .wild "namespace", .wild "name"],
    requireRole editorUp FlagHandler.update⟩,
  ⟨"DELETE", api [.lit "flags", .wild "namespace", .wild "name"],
    requireRole adminOnly FlagHandler.delete⟩,
  ⟨"POST",
    api [.lit "flags", .wild "namespace", .wild "name", .lit "toggle"],
    requireRole editorUp FlagHandler.toggle⟩,

  ⟨"GET", api [.lit "clusters"], ClusterHandler.list⟩,
  ⟨"POST", api [.lit "clusters"],
    requireRole adminOnly ClusterHandler.register⟩,
  ⟨"GET", api [.lit "clusters", .wild "id"], ClusterHandler.get⟩,
  ⟨"DELETE", api [.lit "clusters", .wild "id"],
    requireRole adminOnly ClusterHandler.remove⟩,

  ⟨"GET", api [.lit "clusters", .wild "id", .lit "namespaces"],
    requireRole editorUp WorkloadHandler.listNamespaces⟩,
  ⟨"GET", api [.lit "clusters", .wild "id", .lit "workloads"],
    requireRole editorUp WorkloadHandler.list⟩,
  ⟨"GET",
    api [.lit "clusters", .wild "id", .lit "workloads", .wild "namespace",
      .wild "name"],
    requireRole editorUp WorkloadHandler.get⟩,

  ⟨"GET", api [.lit "audit"], listAudit⟩,

  ⟨"GET", [.lit "healthz"], healthz⟩]

/-- `Request.PathValue`. -/
def pathValue (values : List (String × String)) (name : String) : String :=
  (values.lookup name).getD ""

/-- `mux.ServeHTTP`. A redirect's target is left out. -/
def mux (r : Request) (ctx : UserContext) : ServerProg Response :=
  match serveMux routes r.method r.url with
  | .handler h values => h r ctx (pathValue values)
  | .redirect => .ret { status := 301 }
  | .methodNotAllowed allow =>
      .ret { status := 405
             headers := [("Allow", ", ".intercalate allow)]
             body := .text "Method Not Allowed" }
  | .notFound => .ret { status := 404, body := .text "404 page not found" }
  | .badRequest => .ret { status := 400 }

/-- What the server does with one request. -/
def serve (allowedOrigins : String) : Request → ServerProg Response :=
  cors allowedOrigins (auth mux)

/-- No two routes of the table match one request, so the order in which it is
searched does not matter. -/
theorem routes_exclusive {segs : List String} :
    (routes : List (Route Handler)).Pairwise fun r r' =>
      r.method = r'.method → (matchSegments r.pattern segs).isSome →
        matchSegments r'.pattern segs = none := by
  have hdisjoint : (routes : List (Route Handler)).Pairwise fun r r' =>
      r.method ≠ r'.method ∨ patternsDisjoint r.pattern r'.pattern = true :=
    of_decide_eq_true rfl
  refine hdisjoint.imp fun h hm => ?_
  exact matchSegments_disjoint (h.resolve_left (fun hne => hne hm))

end

end Vexil.Server
