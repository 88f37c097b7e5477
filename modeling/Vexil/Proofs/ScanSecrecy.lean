import Vexil.Server.Scan

/-!
# What a scan cannot tell apart

`PublicWorkload` is what anyone with the right to scan may learn of a workload:
its name, labels, replicas, containers and images, its `FLAG_` variables with
the values they spell out and the ConfigMap keys they refer to, and the operator's
ConfigMaps among those it takes whole. Of a reference to a secret only that
there is one.

A scan of a namespace is a function of the public views of its workloads and of
which calls failed. So two namespaces that look alike are scanned alike, whatever
else is in their pod templates.
-/

namespace Vexil.Server

open Vexil.Lib Vexil.Kube

/-! ## The public part -/

/-- `value` is `none` for a variable that has a `valueFrom`. -/
structure PublicVar where
  name : String
  value : Option String
  configMapKeyRef : Option KeySelector
  hasSecret : Bool
  deriving DecidableEq

def publicVar (env : EnvVar) : PublicVar where
  name := env.name
  value := if env.valueFrom = none then some env.value else none
  configMapKeyRef := env.valueFrom.bind EnvVarSource.configMapKeyRef
  hasSecret := (env.valueFrom.bind EnvVarSource.secretKeyRef).isSome

structure PublicContainer where
  name : String
  image : String
  flagVars : List PublicVar
  configMapRefs : List String
  deriving DecidableEq

def publicContainer (managed : List String) (c : Container) :
    PublicContainer where
  name := c.name
  image := c.image
  flagVars := (c.env.filter fun env => hasPrefix env.name "FLAG_").map publicVar
  configMapRefs :=
    (c.envFrom.filterMap EnvFromSource.configMapRef).filter (· ∈ managed)

structure PublicWorkload where
  kind : String
  ns : String
  name : String
  labels : GoMap String
  replicas : Int
  containers : List PublicContainer
  deriving DecidableEq

def publicWorkload (managed : List String) (w : Workload) :
    PublicWorkload where
  kind := w.kind
  ns := w.metadata.ns
  name := w.metadata.name
  labels := w.metadata.labels
  replicas := w.replicas
  containers := w.template.containers.map (publicContainer managed)

/-- The public part of a namespace. -/
def publicView (s : Cluster) (ns : String) : List PublicWorkload :=
  (workloadsIn s ns).map (publicWorkload (managedConfigMaps s ns))

/-! ## A scan is a function of it -/

def showVar (v : PublicVar) : EnvVarInfo where
  name := v.name
  value := v.value.getD ""
  source :=
    match v.configMapKeyRef with
    | some ref => "configmap:" ++ ref.name ++ "/" ++ ref.key
    | none => if v.hasSecret then "secret" else ""
  isMasked := v.configMapKeyRef.isNone && v.hasSecret
  isFlag := true
  flagName := dropBytes v.name 5

/-- `known` is whether the ConfigMaps of the namespace could be listed. -/
def showContainer (known : Bool) (c : PublicContainer) : ContainerInfo where
  name := c.name
  image := c.image
  envVars := c.flagVars.map showVar
  configMapRefs :=
    c.flagVars.filterMap (fun v =>
        v.configMapKeyRef.map fun ref => ⟨ref.name, ref.key⟩) ++
      if known then c.configMapRefs.map (⟨·, ""⟩) else []

def showWorkload (clusterID : String) (known : Bool) (w : PublicWorkload) :
    DiscoveredWorkload where
  cluster := clusterID
  ns := w.ns
  name := w.name
  kind := w.kind
  replicas := w.replicas
  labels := w.labels
  containers := w.containers.map (showContainer known)

theorem showVar_publicVar (env : EnvVar) :
    showVar (publicVar env) = envVarInfo env := by
  unfold showVar publicVar envVarInfo
  cases env.valueFrom with
  | none => rfl
  | some source =>
      cases hcm : source.configMapKeyRef with
      | some ref => simp [hcm]
      | none =>
          cases hsecret : source.secretKeyRef with
          | some ref => simp [hcm, hsecret]
          | none => simp [hcm, hsecret]

theorem configMapRef_publicVar (env : EnvVar) :
    (publicVar env).configMapKeyRef.map
      (fun ref => ConfigMapRef.mk ref.name ref.key) = envConfigMapRef env := by
  unfold publicVar envConfigMapRef
  cases env.valueFrom with
  | none => rfl
  | some source => cases h : source.configMapKeyRef <;> simp [h]

/-- What is listed as the operator's, when the listing may have failed. -/
def listedConfigMaps (known : Bool) (managed : List String) : List String :=
  if known then managed else []

theorem showContainer_publicContainer (known : Bool) (managed : List String)
    (c : Container) :
    extractContainersSafe (listedConfigMaps known managed) [c] =
      [showContainer known (publicContainer managed c)] := by
  have hvars : (c.env.filter fun env => hasPrefix env.name "FLAG_").map
      (showVar ∘ publicVar) =
      (c.env.filter fun env => hasPrefix env.name "FLAG_").map envVarInfo :=
    List.map_congr_left fun env _ => showVar_publicVar env
  have hrefs : (c.env.filter fun env => hasPrefix env.name "FLAG_").filterMap
      ((fun v => v.configMapKeyRef.map fun ref =>
        ConfigMapRef.mk ref.name ref.key) ∘ publicVar) =
      (c.env.filter fun env => hasPrefix env.name "FLAG_").filterMap
        envConfigMapRef :=
    List.filterMap_congr fun env _ => configMapRef_publicVar env
  have hshown : (c.envFrom.filterMap fun envFrom =>
      (envFrom.configMapRef.filter
        (· ∈ listedConfigMaps known managed)).map (ConfigMapRef.mk · "")) =
      if known then
        ((c.envFrom.filterMap EnvFromSource.configMapRef).filter
          (· ∈ managed)).map (ConfigMapRef.mk · "")
      else [] := by
    cases known with
    | true =>
        induction c.envFrom with
        | nil => rfl
        | cons envFrom rest ih =>
            cases href : envFrom.configMapRef with
            | none => simpa [href] using ih
            | some name =>
                by_cases hname : name ∈ managed
                · simpa [href, hname, listedConfigMaps] using ih
                · simpa [href, hname, listedConfigMaps] using ih
    | false =>
        rw [List.filterMap_eq_nil_iff.mpr]
        · rfl
        · intro envFrom _
          simp [listedConfigMaps]
  simp only [extractContainersSafe, List.map_cons, List.map_nil, showContainer,
    publicContainer, List.map_map, List.filterMap_map, hvars, hrefs, hshown]

theorem showWorkload_publicWorkload (clusterID : String) (known : Bool)
    (managed : List String) (w : Workload) :
    discovered clusterID (listedConfigMaps known managed) w =
      showWorkload clusterID known (publicWorkload managed w) := by
  have hcontainers : ∀ cs : List Container,
      extractContainersSafe (listedConfigMaps known managed) cs =
        (cs.map (publicContainer managed)).map (showContainer known) := by
    intro cs
    rw [List.map_map]
    refine List.map_congr_left fun c _ => ?_
    exact List.head_eq_of_cons_eq (showContainer_publicContainer known managed c)
  simp only [discovered, showWorkload, publicWorkload, hcontainers]

/-- What a scan answers, from the public view and the calls that failed. -/
def shown (clusterID : String) (plan : List (Option String))
    (view : List PublicWorkload) : Except String (List DiscoveredWorkload) :=
  let known := plan.head?.join.isNone
  match plan.tail.head?.join, plan.tail.tail.head?.join,
    plan.tail.tail.tail.head?.join with
  | some err, _, _ => .error ("listing deployments: " ++ err)
  | none, some err, _ => .error ("listing statefulsets: " ++ err)
  | none, none, some err => .error ("listing daemonsets: " ++ err)
  | none, none, none => .ok (view.map (showWorkload clusterID known))

theorem exec_loadVexilConfigMaps_plan (ns : String)
    (plan : List (Option String)) (s : Cluster) :
    ((loadVexilConfigMaps [] ns).exec KubeCall.servePlan (plan, s)).2 =
      (listedConfigMaps plan.head?.join.isNone (managedConfigMaps s ns),
        plan.tail, s) := by
  simp only [loadVexilConfigMaps, Prog.exec, KubeCall.servePlan]
  cases plan.head?.join with
  | some message => rfl
  | none => rfl

theorem exec_scanWorkloads_plan (clusterID : String) (managed : List String)
    (ns : String) (plan : List (Option String)) (s : Cluster) :
    ((scanWorkloads clusterID managed ns).exec KubeCall.servePlan
        (plan, s)).2.1 =
      match plan.head?.join, plan.tail.head?.join,
        plan.tail.tail.head?.join with
      | some err, _, _ => .error ("listing deployments: " ++ err)
      | none, some err, _ => .error ("listing statefulsets: " ++ err)
      | none, none, some err => .error ("listing daemonsets: " ++ err)
      | none, none, none =>
          .ok ((workloadsIn s ns).map (discovered clusterID managed)) := by
  simp only [scanWorkloads, Prog.exec, KubeCall.servePlan]
  cases plan.head?.join with
  | some message => rfl
  | none =>
      simp only [KubeCall.serveOr, KubeCall.serve, Prog.exec,
        KubeCall.servePlan]
      cases plan.tail.head?.join with
      | some message => rfl
      | none =>
          simp only [KubeCall.serveOr, KubeCall.serve, Prog.exec,
            KubeCall.servePlan]
          cases plan.tail.tail.head?.join with
          | some message => rfl
          | none =>
              simp only [Prog.exec, and_true, workloadsIn, List.map_append,
                List.map_map]
              rfl

theorem exec_scanNamespace_plan (clusterID ns : String)
    (plan : List (Option String)) (s : Cluster) :
    ((scanNamespace clusterID [] ns).exec KubeCall.servePlan
        (plan, s)).2.1.1 =
      shown clusterID plan (publicView s ns) := by
  rw [scanNamespace, Prog.exec_bind, exec_loadVexilConfigMaps_plan,
    Prog.exec_map, exec_scanWorkloads_plan, shown, publicView, List.map_map]
  have hshow : (workloadsIn s ns).map (discovered clusterID
      (listedConfigMaps plan.head?.join.isNone (managedConfigMaps s ns))) =
      (workloadsIn s ns).map (showWorkload clusterID plan.head?.join.isNone ∘
        publicWorkload (managedConfigMaps s ns)) :=
    List.map_congr_left fun w _ => showWorkload_publicWorkload _ _ _ w
  rw [hshow]

/-- Namespaces that look alike are scanned alike, whichever calls fail. -/
theorem scan_hides_secrets (clusterID : String) (plan : List (Option String))
    {s s' : Cluster} {ns ns' : String}
    (h : publicView s ns = publicView s' ns') :
    ((scanNamespace clusterID [] ns).exec KubeCall.servePlan
        (plan, s)).2.1.1 =
      ((scanNamespace clusterID [] ns').exec KubeCall.servePlan
        (plan, s')).2.1.1 := by
  rw [exec_scanNamespace_plan, exec_scanNamespace_plan, h]

/-! Two Deployments that differ in a password, in the secrets they refer to and
in a ConfigMap that is not the operator's. -/

def secretCluster (password secret key configMap : String) : Cluster where
  deployments := VTable.empty.write
    { metadata := { name := "web", ns := "default" }
      template := { containers := [{
        name := "main"
        image := "web:1"
        env := [
          { name := "FLAG_DARK_MODE", value := "true" },
          { name := "PASSWORD", value := password },
          { name := "FLAG_TOKEN"
            valueFrom := some { secretKeyRef := some ⟨secret, key⟩ } }]
        envFrom := [{ secretRef := some secret },
          { configMapRef := some configMap },
          { configMapRef := some "flags" }] }] } }
  configMaps := VTable.empty.write
    { metadata := {
        name := "flags"
        ns := "default"
        labels := GoMap.single "app.kubernetes.io/managed-by" "vexil" } }

theorem scan_hides_secrets_sample :
    ((scanNamespace "prod" [] "default").exec KubeCall.servePlan
        ([], secretCluster "hunter2" "db" "pw" "internal")).2.1.1 =
      ((scanNamespace "prod" [] "default").exec KubeCall.servePlan
        ([], secretCluster "letmein" "vault" "root" "private")).2.1.1 :=
  scan_hides_secrets "prod" [] (by decide +kernel)

end Vexil.Server
