import Vexil.Server.Http

/-!
# Clusters, workloads and the audit log over HTTP

`handlers/clusters.go`, `handlers/workloads.go` and `handlers/audit.go`. Apart
from registering and removing a cluster these handlers only read.
-/

namespace Vexil.Server

open Vexil.Lib Vexil.Kube

namespace ClusterHandler

def clusterToResponse (c : ClusterInfo) : ClusterResponse where
  id := c.id
  displayName := c.displayName
  apiServer := c.apiServer
  status := c.status
  kubernetesVersion := c.kubernetesVersion
  discoveredWorkloads := c.discoveredWorkloads

def list : Handler := fun _ _ _ =>
  .call (.clusters .listClusters) fun clusters =>
    .ret (writeJSON 200 (.clusters (clusters.map clusterToResponse)))

def register : Handler := fun r _ _ =>
  match r.body.registerCluster with
  | none => .ret (writeError 400 "invalid request body")
  | some req =>
      if req.id = "" ∨ req.displayName = "" then
        .ret (writeError 400 "id and displayName are required")
      else
        .call (.clusters (.addCluster
            { id := req.id
              displayName := req.displayName
              apiServer := req.apiServer } req.kubeconfig req.token)) fun
          | .error err => .ret (writeError 500 err)
          | .ok _ =>
              recordAudit
                { action := "register"
                  resource := "cluster"
                  resourceId := req.id } <|
                .ret (writeJSON 201 (.cluster
                  { id := req.id
                    displayName := req.displayName
                    apiServer := req.apiServer
                    status := .connected }))

def get : Handler := fun _ _ pathValue =>
  .call (.clusters (.getClusterInfo (pathValue "id"))) fun
    | .error _ => .ret (writeError 404 "cluster not found")
    | .ok info => .ret (writeJSON 200 (.cluster (clusterToResponse info)))

def remove : Handler := fun _ _ pathValue =>
  let id := pathValue "id"
  .call (.clusters (.removeCluster id)) fun
    | .error _ => .ret (writeError 404 "cluster not found")
    | .ok _ =>
        recordAudit
          { action := "remove"
            resource := "cluster"
            resourceId := id } <|
          .ret { status := 204 }

end ClusterHandler

namespace WorkloadHandler

def namespacesWithFlags : KubeProg (Except String (List String)) :=
  .call (.listFlags none) fun
    | .error err => .ret (.error err.message)
    | .ok items =>
        .ret (.ok (items.map fun f => f.metadata.ns).dedup.mergeSort)

/-- `allowed, _ := namespacesWithFlags(…)`. -/
def allowedNamespaces : KubeProg (List String) :=
  namespacesWithFlags.map fun
    | .error _ => []
    | .ok names => names

/-- The selector of a flag's delivery: that of the first kind it has. -/
def deliverySelector (delivery : DeliverySpec) : Option LabelSelector :=
  match delivery.envVar, delivery.configMap, delivery.sidecar with
  | some envVar, _, _ => envVar.selector
  | none, some configMap, _ => configMap.selector
  | none, none, some sidecar => sidecar.selector
  | none, none, none => none

structure FlagSelector where
  name : String
  ns : String
  selector : GoMap String → Bool

section
variable [Apimachinery]

/-- A flag without a selector, or with one that is not valid, matches nothing. -/
def flagSelector (f : FeatureFlag) : Option FlagSelector :=
  match f.spec.delivery.bind deliverySelector with
  | none => none
  | some ls =>
      match Apimachinery.labelSelectorAsSelector (some ls) with
      | .error _ => none
      | .ok sel => some ⟨f.metadata.name, f.metadata.ns, sel⟩

/-- The selectors of the flags in some namespaces. Go ranges over the set of
namespaces in any order; a workload is only matched against its own namespace,
so the order does not show. -/
def flagSelectors : List String → KubeProg (List FlagSelector)
  | [] => .ret []
  | ns :: rest =>
      .call (.listFlags (some ns)) fun
        | .error _ => flagSelectors rest
        | .ok items => (flagSelectors rest).map fun selectors =>
            items.filterMap flagSelector ++ selectors

def matchingFlags (selectors : List FlagSelector) (wl : DiscoveredWorkload) :
    List String :=
  (selectors.filter fun fs => fs.ns = wl.ns ∧ fs.selector wl.labels).map
    FlagSelector.name

def enrichWithMatchingFlags (workloads : List DiscoveredWorkload) :
    KubeProg (List DiscoveredWorkload) :=
  (flagSelectors (workloads.map DiscoveredWorkload.ns).dedup).map fun selectors =>
    workloads.map fun wl =>
      { wl with
        matchingFlags := wl.matchingFlags ++ matchingFlags selectors wl }

/-- `enrichWithMatchingFlags`, with the order in which Go ranges over the set of
namespaces. -/
def enrichInOrder (nss : List String) (workloads : List DiscoveredWorkload) :
    KubeProg (List DiscoveredWorkload) :=
  (flagSelectors nss).map fun selectors => workloads.map fun wl =>
    { wl with matchingFlags := wl.matchingFlags ++ matchingFlags selectors wl }

/-- One order is enough elsewhere. -/
theorem enrichWithMatchingFlags_eq (workloads : List DiscoveredWorkload) :
    enrichWithMatchingFlags workloads =
      enrichInOrder (workloads.map DiscoveredWorkload.ns).dedup workloads := rfl

def listWorkloads (clusterID ns : String) : KubeProg Response :=
  allowedNamespaces.bind fun allowed =>
    let enriched (workloads : List DiscoveredWorkload) : KubeProg Response :=
      (enrichWithMatchingFlags workloads).map fun workloads =>
        writeJSON 200 (.workloads workloads)
    if ns = "" then (scanCluster clusterID allowed).bind enriched
    else if ns ∉ allowed then .ret (writeJSON 200 (.workloads []))
    else
      (scanNamespace clusterID [] ns).bind fun
        | (.error err, _) => .ret (writeError 500 err)
        | (.ok workloads, _) => enriched workloads

def list : Handler := fun r _ pathValue =>
  let clusterID := pathValue "id"
  withClient clusterID "cluster not found" fun client =>
    onCluster client (listWorkloads clusterID (r.query "namespace"))

end

def listNamespaces : Handler := fun _ _ pathValue =>
  withClient (pathValue "id") "cluster not found" fun client =>
    onCluster client <| namespacesWithFlags.map fun
      | .error err => writeError 500 err
      | .ok names => writeJSON 200 (.namespaces names)

def workloadNotFound : Response := writeError 404 "workload not found"

def getWorkload (clusterID ns name : String) : KubeProg Response :=
  allowedNamespaces.bind fun allowed =>
    if ns ∉ allowed then .ret workloadNotFound
    else
      (scanNamespace clusterID [] ns).map fun
        | (.error err, _) => writeError 500 err
        | (.ok workloads, _) =>
            match workloads.find? fun wl => wl.name = name with
            | some wl => writeJSON 200 (.workload wl)
            | none => workloadNotFound

def get : Handler := fun _ _ pathValue =>
  let clusterID := pathValue "id"
  withClient clusterID "cluster not found" fun client =>
    onCluster client
      (getWorkload clusterID (pathValue "namespace") (pathValue "name"))

end WorkloadHandler

/-- `AuditHandler.List`. -/
def listAudit : Handler := fun r _ _ =>
  .call (.store (.listAuditEvents
      { resource := r.query "resource"
        resourceId := r.query "resourceId"
        action := r.query "action"
        cluster := r.query "cluster" })) fun
    | .error err => .ret (writeError 500 err)
    | .ok events => .ret (writeJSON 200 (.auditEvents events))

end Vexil.Server
