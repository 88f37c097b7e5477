import Vexil.Operator.System

/-!
# What the operator writes

Several flags share Deployments and ConfigMaps, reconciles of all of them run at
once, users edit the same objects, and what a reconcile read may be old when it
writes. Still an accepted write of the operator replaces the very version it was
computed from, and differs from it in the flag's own place only.

The two halves meet at the write. `OperatorCall` says that the object in the
call is a version read earlier, edited; the server's version check says that the
stored version is that one. So the edit, which is a pure function of one object,
is also the difference between two stored versions.
-/

namespace Vexil.Operator

open Vexil.Lib Vexil.Kube

/-! ## The edit of a Deployment -/

/-- At most: in each container one value or one new entry, and the flags hash. -/
structure DeploymentEdit (envName value : String) (old new : Deployment) :
    Prop where
  metadata : new.metadata = old.metadata
  replicas : new.replicas = old.replicas
  containers : List.Forall₂
    (fun c c' => c' = { c with env := c'.env } ∧
      EnvEdit envName value c.env c'.env)
    old.template.containers new.template.containers
  annotations : ∀ k, k ≠ flagsHash →
    (orEmpty new.template.annotations).lookup k =
      (orEmpty old.template.annotations).lookup k

theorem injected_edit (flagName envName value : String) (d : Deployment) :
    DeploymentEdit envName value d (injected flagName envName value d) where
  metadata := metadata_injected flagName envName value d
  replicas := replicas_injected flagName envName value d
  containers := by
    rw [containers_injected, List.forall₂_map_right_iff, List.forall₂_same]
    intro c _
    exact ⟨injectContainer_frame envName value c,
      injectContainer_cases envName value c⟩
  annotations k hk := annotations_injected flagName envName value k d hk

/-! ## The writes -/

section
variable [Apimachinery]

/-- What a step of a reconcile of `req` may do to the cluster. `f` is the flag
as some version of it declared it, and `old` is the version that is replaced. -/
inductive OperatorWrite (req : ObjectKey) (s : Cluster) : Cluster → Prop
  | nothing : OperatorWrite req s s
  | deployment (f : FeatureFlag) (delivery : EnvVarDelivery)
      (selector : GoMap String → Bool) (old new : Deployment)
      (hflag : f ∈ s.flags.past) (hkey : f.metadata.objectKey = req)
      (hdel : f.spec.delivery.bind DeliverySpec.envVar = some delivery)
      (hsel : Apimachinery.labelSelectorAsSelector delivery.selector =
        .ok selector)
      (hold : s.deployments.get? old.metadata.objectKey = some old)
      (hns : old.metadata.ns = f.metadata.ns)
      (hlabels : selector old.metadata.labels = true)
      (hedit : DeploymentEdit (envVarName f delivery) f.spec.defaultValue old
        new) :
      OperatorWrite req s { s with deployments := s.deployments.write new }
  | newConfigMap (f : FeatureFlag) (delivery : ConfigMapDelivery)
      (cm : ConfigMap) (hflag : f ∈ s.flags.past)
      (hkey : f.metadata.objectKey = req)
      (hdel : f.spec.delivery.bind DeliverySpec.configMap = some delivery)
      (hcm : cm.metadata.objectKey = ⟨f.metadata.ns, delivery.configMapName⟩)
      (hnone : s.configMaps.get? cm.metadata.objectKey = none)
      (hdata : cm.data =
        some (GoMap.single delivery.key f.spec.defaultValue)) :
      OperatorWrite req s { s with configMaps := s.configMaps.write cm }
  | configMap (f : FeatureFlag) (delivery : ConfigMapDelivery)
      (old : ConfigMap) (data : GoMap String) (hflag : f ∈ s.flags.past)
      (hkey : f.metadata.objectKey = req)
      (hdel : f.spec.delivery.bind DeliverySpec.configMap = some delivery)
      (hcm : old.metadata.objectKey = ⟨f.metadata.ns, delivery.configMapName⟩)
      (hold : s.configMaps.get? old.metadata.objectKey = some old)
      (hdata : ∀ k, k ≠ delivery.key →
        data.lookup k = (orEmpty old.data).lookup k) :
      OperatorWrite req s { s with
        configMaps := s.configMaps.write { old with data := some data } }
  | status (old : FeatureFlag) (status : FeatureFlagStatus)
      (hold : s.flags.get? req = some old) :
      OperatorWrite req s { s with
        flags := s.flags.write { old with status := status } }

variable {ι : Type} [DecidableEq ι]

/-- An accepted `Update` of a Deployment replaces the version it was computed
from. -/
theorem deployment_write {s s' : Cluster} {req : ObjectKey} {d new d' : Deployment}
    {f : FeatureFlag} {delivery : EnvVarDelivery}
    {selector : GoMap String → Bool} (hflag : f ∈ s.flags.past)
    (hkey : f.metadata.objectKey = req)
    (hdel : f.spec.delivery.bind DeliverySpec.envVar = some delivery)
    (hsel : Apimachinery.labelSelectorAsSelector delivery.selector =
      .ok selector)
    (hpast : d ∈ s.deployments.past) (hns : d.metadata.ns = f.metadata.ns)
    (hlabels : selector d.metadata.labels = true)
    (hedit : DeploymentEdit (envVarName f delivery) f.spec.defaultValue d new)
    (h : KubeStep s ⟨.updateDeployment new, .ok d'⟩ s') :
    OperatorWrite req s s' := by
  obtain ⟨old, hold, hv, hs⟩ := kubeStep_updateDeployment h
  rw [hedit.metadata] at hold hv
  have heq : old = d := VTable.eq_of_version hpast hold hv
  subst heq
  rcases hs with ⟨_, rfl⟩ | rfl
  · exact .nothing
  · exact .deployment f delivery selector old new hflag hkey hdel hsel hold hns
      hlabels hedit

/-- The step lemma: one call of one reconcile, in any state of any run. -/
theorem operator_step {nows : ι → Nat} {reqs : ι → ObjectKey}
    {s₀ s s' : Cluster} {ls : List (SystemLabel ι)} {i : ι} {c : KubeCall}
    {v : c.Value} (hrun : Run SystemStep s₀ ls s)
    (hcall : OperatorCall (nows i) (reqs i) (proj i ls) c)
    (hstep : KubeStep s ⟨c, .ok v⟩ s') : OperatorWrite (reqs i) s s' := by
  have hread : ∀ e, e ∈ proj i ls → Label.own i e ∈ ls := fun e he =>
    mem_proj.mp he
  cases c with
  | getFlag | listDeployments | getConfigMap =>
      rw [hstep.of_read rfl]
      exact .nothing
  | listFlags | createFlag | updateFlag | deleteFlag | listStatefulSets
  | listDaemonSets | listConfigMaps => exact hcall.elim
  | updateDeployment new =>
      obtain ⟨f, delivery, selector, ds, d, hf, hds, hd, hdel, hsel, rfl⟩ :=
        hcall
      obtain ⟨hflag, hkey⟩ := getFlag_past hrun (hread _ hf)
      obtain ⟨hpast, hns, hlabels⟩ :=
        listDeployments_past hrun (hread _ hds) d hd
      exact deployment_write hflag hkey hdel hsel hpast hns hlabels
        (injected_edit _ _ _ d) hstep
  | createConfigMap cm =>
      obtain ⟨f, delivery, hf, hdel, rfl⟩ := hcall
      obtain ⟨hflag, hkey⟩ := getFlag_past hrun (hread _ hf)
      obtain ⟨hnone, rfl⟩ := kubeStep_createConfigMap hstep
      exact .newConfigMap f delivery _ hflag hkey hdel rfl hnone rfl
  | updateConfigMap cm' =>
      obtain ⟨f, delivery, cm, hf, hcm, hdel, rfl⟩ := hcall
      obtain ⟨hflag, hkey⟩ := getFlag_past hrun (hread _ hf)
      obtain ⟨hpast, hname⟩ := getConfigMap_past hrun (hread _ hcm)
      obtain ⟨old, hold, hv, hs⟩ := kubeStep_updateConfigMap hstep
      have heq : old = cm := VTable.eq_of_version hpast hold hv
      subst heq
      rcases hs with ⟨_, rfl⟩ | rfl
      · exact .nothing
      · refine .configMap f delivery old _ hflag hkey hdel hname hold ?_
        intro k hk
        rw [GoMap.lookup_insert, if_neg hk]
  | updateFlagStatus f' =>
      obtain ⟨f, phase, count, hf, _, rfl⟩ := hcall
      obtain ⟨hflag, hkey⟩ := getFlag_past hrun (hread _ hf)
      obtain ⟨old, hold, _, hs⟩ := kubeStep_updateFlagStatus hstep
      have hold' : s.flags.get? f.metadata.objectKey = some old := hold
      rw [hkey] at hold'
      rcases hs with ⟨_, rfl⟩ | rfl
      · exact .nothing
      · exact .status old _ hold'

/-- In every run of any number of reconciles among other clients, each step of
a reconcile writes at most what its flag may write, over the version it read. -/
theorem operator_writes_in_scope (nows : ι → Nat) (reqs : ι → ObjectKey)
    {s₀ s s' : Cluster} {pre post : List (SystemLabel ι)} {i : ι}
    {e : KubeEvent}
    (hprogs : Interleaved (fun i => reconcile (nows i) (reqs i))
      (pre ++ .own i e :: post))
    (hrun : Run SystemStep s₀ pre s)
    (hstep : SystemStep s (.own i e : SystemLabel ι) s') :
    OperatorWrite (reqs i) s s' := by
  have hcall : OperatorCall (nows i) (reqs i) (proj i pre) e.call :=
    hprogs.call_along (P := fun i => OperatorCall (nows i) (reqs i))
      (reconcile_along (nows i) (reqs i))
  obtain ⟨c, r⟩ := e
  rcases StaleStep.cases hstep with ⟨_, rfl⟩ | hkube
  · exact .nothing
  · cases r with
    | error err =>
        rw [hkube.of_error]
        exact .nothing
    | ok v => exact operator_step hrun hcall hkube

end

/-! The third call of this reconcile is an `Update` of the Deployment. -/

def frameCluster : Cluster where
  flags := VTable.empty.write (sampleFlag {
    envVar := some { selector := some (sampleSelector "web") } })
  deployments := VTable.empty.write (sampleDeployment "web" "web" [])

def frameTrace : List KubeEvent :=
  letI := labelSelectors
  ((reconcile 7 ⟨"default", "dark-mode"⟩).exec KubeCall.serve frameCluster).1

theorem operator_writes_in_scope_sample :
    letI := labelSelectors
    ∃ e s s', frameTrace[2]? = some e ∧
      Run SystemStep frameCluster (ownAll () (frameTrace.take 2)) s ∧
      SystemStep s (.own () e : SystemLabel Unit) s' ∧
      OperatorWrite ⟨"default", "dark-mode"⟩ s s' := by
  let := labelSelectors
  have hlen : 2 < frameTrace.length := by decide
  have hsys : ∀ s e s', CleanStep s e s' →
      SystemStep s (.own () e : SystemLabel Unit) s' :=
    fun _ _ _ h => h.kubeStep.stale
  obtain ⟨e, s, s', he, hprogs, hrun, hstep⟩ := Prog.exec_event
    (ε := OtherWrite) KubeCall.serve (reconcile 7 ⟨"default", "dark-mode"⟩)
    frameCluster hlen
  exact ⟨e, s, s', he, hrun.ownAll hsys, hsys _ _ _ hstep,
    operator_writes_in_scope (fun _ => 7)
      (fun _ => ⟨"default", "dark-mode"⟩) hprogs (hrun.ownAll hsys)
      (hsys _ _ _ hstep)⟩

end Vexil.Operator
