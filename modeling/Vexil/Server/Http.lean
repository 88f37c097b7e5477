import Vexil.Lib.ServeMux
import Vexil.Server.Calls
import Vexil.Server.Scanner

/-!
# Requests and responses

What a handler reads from a request and what it writes back. A body is given by
what `json.Decode` makes of it, for each type some handler decodes: `none` is
the error. A response body is given by the value that is encoded.
-/

namespace Vexil.Server

open Vexil.Lib Vexil.Kube

/-! ## Request bodies -/

structure LoginRequest where
  username : String
  password : String
  deriving DecidableEq

structure CreateUserRequest where
  username : String
  password : String
  role : String
  deriving DecidableEq

structure UpdateUserRequest where
  password : String
  role : String
  deriving DecidableEq

structure CreateFlagRequest where
  name : String
  ns : String
  clusterID : String
  description : String := ""
  type : FlagType
  defaultValue : String
  delivery : Option DeliverySpec := none
  deriving DecidableEq

/-- The `updates` of `FlagHandler.Update`: `none` is a field left out. -/
structure FlagUpdates where
  description : Option String := none
  defaultValue : Option String := none
  disabled : Option Bool := none
  delivery : Option DeliverySpec := none
  rules : Option (List TargetingRule) := none
  deriving DecidableEq

structure RegisterClusterRequest where
  id : String
  displayName : String
  apiServer : String
  kubeconfig : String := ""
  token : String := ""
  deriving DecidableEq

/-- One body, as each of the types it may be decoded to. -/
structure RequestBody where
  login : Option LoginRequest := none
  createUser : Option CreateUserRequest := none
  updateUser : Option UpdateUserRequest := none
  createFlag : Option CreateFlagRequest := none
  updates : Option FlagUpdates := none
  registerCluster : Option RegisterClusterRequest := none
  deriving DecidableEq

/-- `origin` and `authorization` are headers, `query` is `URL.Query().Get`. -/
structure Request where
  method : String
  url : URL
  query : String → String := fun _ => ""
  origin : String := ""
  authorization : String := ""
  body : RequestBody := {}

/-! ## Response bodies -/

structure MeResponse where
  username : String
  role : String
  deriving DecidableEq

structure FlagResponse where
  name : String
  ns : String
  clusterID : String
  description : String
  type : FlagType
  defaultValue : String
  currentValue : String
  phase : FlagPhase
  disabled : Bool
  targetedWorkloads : Nat
  lifecycle : FlagLifecycle
  delivery : Option DeliverySpec
  rules : List TargetingRule
  createdAt : Nat
  updatedAt : Option Nat
  deriving DecidableEq

structure ClusterResponse where
  id : String
  displayName : String
  apiServer : String
  status : ConnectionStatus
  kubernetesVersion : String := ""
  discoveredWorkloads : Int := 0
  deriving DecidableEq

inductive ResponseBody where
  | empty
  | text (s : String)
  | error (message : String)
  | message (text : String)
  | login (token : String) (user : MeResponse)
  | me (user : MeResponse)
  | users (users : List User)
  | flag (f : FlagResponse)
  | flags (fs : List FlagResponse)
  | cluster (c : ClusterResponse)
  | clusters (cs : List ClusterResponse)
  | namespaces (names : List String)
  | workload (w : DiscoveredWorkload)
  | workloads (ws : List DiscoveredWorkload)
  | auditEvents (events : List AuditEvent)
  deriving DecidableEq

structure Response where
  status : Nat
  headers : List (String × String) := []
  body : ResponseBody := .empty
  deriving DecidableEq

def writeJSON (status : Nat) (body : ResponseBody) : Response where
  status := status
  headers := [("Content-Type", "application/json")]
  body := body

def writeError (status : Nat) (message : String) : Response :=
  writeJSON status (.error message)

/-! ## Handlers -/

/-- What `Auth` leaves in the request's context; empty when it let the request
pass without a token. -/
structure UserContext where
  username : String := ""
  role : String := ""
  deriving DecidableEq

/-- `http.HandlerFunc`: the request, its context and its `PathValue`. -/
abbrev Handler :=
  Request → UserContext → (String → String) → ServerProg Response

/-- The token of an `Authorization` header of the form `Bearer <token>`. -/
def extractBearerToken (r : Request) : String :=
  let auth := r.authorization.toList
  if auth.length > 7 ∧ auth.take 7 = "Bearer ".toList then
    String.ofList (auth.drop 7)
  else ""

/-- A program over a cluster's API, through one client of it. -/
def onCluster {α : Type} (client : Endpoint) (p : KubeProg α) : ServerProg α :=
  p.embed (.kube client)

/-- `h.clusters.GetClient(id)`, with the answer all handlers give when the
cluster is not there. -/
def withClient (id notFound : String) (k : Endpoint → ServerProg Response) :
    ServerProg Response :=
  .call (.clusters (.getClient id)) fun
    | .error _ => .ret (writeError 404 notFound)
    | .ok client => k client

/-- `h.store.RecordAudit`; its error is dropped. -/
def recordAudit {α : Type} (event : AuditEvent) (k : ServerProg α) :
    ServerProg α :=
  .call (.store (.recordAudit event)) fun _ => k

end Vexil.Server
