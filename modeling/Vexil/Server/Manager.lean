import Vexil.Lib.Go

/-!
# The cluster registry

`internal/multicluster/manager.go`. A registered cluster is a name for a
connection. What is at the other end is not part of the registry: a client is
represented by the endpoint it talks to, and two names may reach one endpoint.

Parsing a kubeconfig and building a client are `client-go`'s. The first is a
function of its input; the second also asks the network, and may fail on that
account.
-/

namespace Vexil.Server

open Vexil.Lib

/-- What a `client.Client` talks to. -/
abbrev Endpoint := String

/-- `rest.Config`. -/
structure RestConfig where
  host : String
  bearerToken : String := ""
  deriving DecidableEq

/-- What the registry takes from `client-go` and `controller-runtime`. -/
class ClientGo where
  restConfigFromKubeConfig : String → Except String RestConfig
  newClient : RestConfig → Except String Endpoint

/-- To run the code with: a kubeconfig is a host, and every host answers. -/
@[reducible] def anyHost : ClientGo where
  restConfigFromKubeConfig kubeconfig := .ok { host := kubeconfig }
  newClient cfg := .ok cfg.host

inductive ConnectionStatus where
  | unset | connected | disconnected | error
  deriving DecidableEq, Repr

structure ClusterInfo where
  id : String
  displayName : String
  apiServer : String
  status : ConnectionStatus := .unset
  kubernetesVersion : String := ""
  discoveredWorkloads : Int := 0
  deriving DecidableEq

/-- `clusterConn`. -/
structure ClusterConn where
  info : ClusterInfo
  config : RestConfig
  client : Endpoint
  deriving DecidableEq

structure Manager where
  clusters : GoMap ClusterConn
  deriving DecidableEq

namespace Manager

def clusterNotFound (id : String) : String := "cluster " ++ id ++ " not found"

section
variable [ClientGo]

/-- The connection `AddCluster` asks for. -/
def restConfig (info : ClusterInfo) (kubeconfig token : String) :
    Except String RestConfig :=
  if kubeconfig ≠ "" then
    match ClientGo.restConfigFromKubeConfig kubeconfig with
    | .error err => .error ("parsing kubeconfig: " ++ err)
    | .ok cfg => .ok cfg
  else if token ≠ "" then .ok { host := info.apiServer, bearerToken := token }
  else .error "either kubeconfig or token must be provided"

/-- `fault` is what kept `client.New` from reaching the cluster, if anything
did. -/
def addCluster (m : Manager) (fault : Option String) (info : ClusterInfo)
    (kubeconfig token : String) : Except String Unit × Manager :=
  match m.clusters.lookup info.id with
  | some _ => (.error ("cluster " ++ info.id ++ " already registered"), m)
  | none =>
      match restConfig info kubeconfig token with
      | .error err => (.error err, m)
      | .ok cfg =>
          match fault, ClientGo.newClient cfg with
          | some err, _ | none, .error err =>
              (.error ("creating k8s client: " ++ err), m)
          | none, .ok client =>
              let info := { info with status := .connected }
              (.ok (), ⟨m.clusters.insert info.id ⟨info, cfg, client⟩⟩)

end

def removeCluster (m : Manager) (id : String) : Except String Unit × Manager :=
  match m.clusters.lookup id with
  | none => (.error (clusterNotFound id), m)
  | some _ => (.ok (), ⟨m.clusters.erase id⟩)

def getClient (m : Manager) (id : String) : Except String Endpoint :=
  match m.clusters.lookup id with
  | none => .error (clusterNotFound id)
  | some conn => .ok conn.client

def getClusterInfo (m : Manager) (id : String) : Except String ClusterInfo :=
  match m.clusters.lookup id with
  | none => .error (clusterNotFound id)
  | some conn => .ok conn.info

/-- `ListClusters`, when `range` goes through the names in this order. -/
def listClusters (m : Manager) (ids : List String) : List ClusterInfo :=
  ids.filterMap fun id => (m.clusters.lookup id).map ClusterConn.info

end Manager

/-! ## The methods as calls -/

inductive ManagerCall where
  | addCluster (info : ClusterInfo) (kubeconfig token : String)
  | removeCluster (id : String)
  | getClient (id : String)
  | getClusterInfo (id : String)
  | clusterIDs
  | listClusters
  deriving DecidableEq

abbrev ManagerCall.Reply : ManagerCall → Type
  | .addCluster _ _ _ | .removeCluster _ => Except String Unit
  | .getClient _ => Except String Endpoint
  | .getClusterInfo _ => Except String ClusterInfo
  | .clusterIDs => List String
  | .listClusters => List ClusterInfo

/-- The registry's answer, when `range` goes through the names as `order`. -/
def ManagerCall.serve [ClientGo] (fault : Option String)
    (order : List String) : (c : ManagerCall) → Manager → c.Reply × Manager
  | .addCluster info kubeconfig token, m =>
      m.addCluster fault info kubeconfig token
  | .removeCluster id, m => m.removeCluster id
  | .getClient id, m => (m.getClient id, m)
  | .getClusterInfo id, m => (m.getClusterInfo id, m)
  | .clusterIDs, m => (order, m)
  | .listClusters, m => (m.listClusters order, m)

end Vexil.Server
