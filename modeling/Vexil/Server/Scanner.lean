import Vexil.Kube.Cluster

/-!
# Workload discovery

`internal/discovery/scanner.go`. The scanner reads workloads through a cluster's
API and reports their flag settings: variables named `FLAG_*`, and references to
ConfigMaps that carry the operator's label.

The names of those ConfigMaps are kept in the scanner from one namespace to the
next, and forgotten only when a namespace's ConfigMaps cannot be listed. So they
are an argument and a result of each scan.
-/

namespace Vexil.Server

open Vexil.Lib Vexil.Kube

abbrev KubeProg (α : Type) := Prog KubeCall KubeCall.Reply α

structure EnvVarInfo where
  name : String
  value : String := ""
  source : String := ""
  isMasked : Bool := false
  isFlag : Bool
  flagName : String := ""
  deriving DecidableEq

/-- `key` is empty for a reference to the whole ConfigMap. -/
structure ConfigMapRef where
  name : String
  key : String := ""
  deriving DecidableEq

structure ContainerInfo where
  name : String
  image : String
  envVars : List EnvVarInfo := []
  configMapRefs : List ConfigMapRef := []
  deriving DecidableEq

structure DiscoveredWorkload where
  cluster : String
  ns : String
  name : String
  kind : String
  replicas : Int
  labels : GoMap String
  containers : List ContainerInfo
  matchingFlags : List String := []
  deriving DecidableEq

/-! ## Containers -/

def envVarInfo (env : EnvVar) : EnvVarInfo :=
  let ev : EnvVarInfo :=
    { name := env.name, isFlag := true, flagName := dropBytes env.name 5 }
  match env.valueFrom with
  | none => { ev with value := env.value }
  | some source =>
      match source.configMapKeyRef with
      | some ref =>
          { ev with source := "configmap:" ++ ref.name ++ "/" ++ ref.key }
      | none =>
          match source.secretKeyRef with
          | some _ => { ev with source := "secret", isMasked := true }
          | none => ev

/-- The reference a flag variable makes. -/
def envConfigMapRef (env : EnvVar) : Option ConfigMapRef := do
  let ref ← (← env.valueFrom).configMapKeyRef
  return ⟨ref.name, ref.key⟩

/-- `extractContainersSafe`, with the ConfigMaps known to be the operator's. -/
def extractContainersSafe (managed : List String) (containers : List Container) :
    List ContainerInfo :=
  containers.map fun c =>
    let flags := c.env.filter fun env => hasPrefix env.name "FLAG_"
    { name := c.name
      image := c.image
      envVars := flags.map envVarInfo
      configMapRefs := flags.filterMap envConfigMapRef ++
        c.envFrom.filterMap fun envFrom =>
          (envFrom.configMapRef.filter (· ∈ managed)).map (⟨·, ""⟩) }

def scanDeployment (clusterID : String) (managed : List String)
    (d : Deployment) : DiscoveredWorkload where
  cluster := clusterID
  ns := d.metadata.ns
  name := d.metadata.name
  kind := "Deployment"
  replicas := d.replicas.getD 0
  labels := d.metadata.labels
  containers := extractContainersSafe managed d.template.containers

def scanStatefulSet (clusterID : String) (managed : List String)
    (ss : StatefulSet) : DiscoveredWorkload where
  cluster := clusterID
  ns := ss.metadata.ns
  name := ss.metadata.name
  kind := "StatefulSet"
  replicas := ss.replicas.getD 0
  labels := ss.metadata.labels
  containers := extractContainersSafe managed ss.template.containers

def scanDaemonSet (clusterID : String) (managed : List String)
    (ds : DaemonSet) : DiscoveredWorkload where
  cluster := clusterID
  ns := ds.metadata.ns
  name := ds.metadata.name
  kind := "DaemonSet"
  replicas := ds.desiredNumberScheduled
  labels := ds.metadata.labels
  containers := extractContainersSafe managed ds.template.containers

/-! ## Namespaces -/

/-- `client.MatchingLabels` of the operator's ConfigMaps. -/
def vexilManaged (labels : GoMap String) : Bool :=
  labels.lookup "app.kubernetes.io/managed-by" = some "vexil"

/-- `loadVexilConfigMaps`, with what `ScanNamespace` does about its error. -/
def loadVexilConfigMaps (managed : List String) (ns : String) :
    KubeProg (List String) :=
  .call (.listConfigMaps ns vexilManaged) fun
    | .error _ => .ret []
    | .ok cms => .ret (managed ++ cms.map fun cm => cm.metadata.name)

def scanWorkloads (clusterID : String) (managed : List String) (ns : String) :
    KubeProg (Except String (List DiscoveredWorkload)) :=
  .call (.listDeployments ns fun _ => true) fun
    | .error err => .ret (.error ("listing deployments: " ++ err.message))
    | .ok deployments =>
        .call (.listStatefulSets ns) fun
          | .error err =>
              .ret (.error ("listing statefulsets: " ++ err.message))
          | .ok statefulsets =>
              .call (.listDaemonSets ns) fun
                | .error err =>
                    .ret (.error ("listing daemonsets: " ++ err.message))
                | .ok daemonsets => .ret (.ok
                    (deployments.map (scanDeployment clusterID managed) ++
                      statefulsets.map (scanStatefulSet clusterID managed) ++
                      daemonsets.map (scanDaemonSet clusterID managed)))

def scanNamespace (clusterID : String) (managed : List String) (ns : String) :
    KubeProg (Except String (List DiscoveredWorkload) × List String) :=
  (loadVexilConfigMaps managed ns).bind fun managed =>
    (scanWorkloads clusterID managed ns).map fun r => (r, managed)

def systemNamespaces : List String :=
  ["kube-system", "kube-public", "kube-node-lease", "local-path-storage"]

/-- The loop of `ScanCluster`: a namespace that cannot be scanned is left out. -/
def scanNamespaces (clusterID : String) :
    List String → List String → KubeProg (List DiscoveredWorkload)
  | _, [] => .ret []
  | managed, ns :: rest =>
      if ns ∈ systemNamespaces then scanNamespaces clusterID managed rest
      else
        (scanNamespace clusterID managed ns).bind fun (r, managed) =>
          (scanNamespaces clusterID managed rest).map fun workloads =>
            match r with
            | .error _ => workloads
            | .ok found => found ++ workloads

/-- `ScanCluster`. It reports no error. -/
def scanCluster (clusterID : String) (allowedNamespaces : List String) :
    KubeProg (List DiscoveredWorkload) :=
  scanNamespaces clusterID [] allowedNamespaces

end Vexil.Server
