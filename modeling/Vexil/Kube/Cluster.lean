import Vexil.Kube.Crd
import Vexil.Lib.Run

/-!
# The Kubernetes API, as a client sees it

The calls the code makes through `client.Client`, and a cluster that answers
them. The cluster keeps its objects in `VTable`s, so an `Update` is accepted
only from the current `resourceVersion` and a `Create` only for a free name.
FeatureFlags have a status subresource: a write to the main resource keeps the
stored status and raises `generation` when it changes the spec, a write to the
status keeps everything else, and a new object starts with generation 1 and an
empty status. A client here is one in Go, and what is stored of a spec that it
sends is in `Kube.Crd`.

Three readings of one call are used later. `serve` is the faultless answer from
the latest state. `KubeStep` adds that any call may fail, with no effect.
`StaleStep` adds that a read may be answered from a cache: with any version the
object ever had. Each includes the one before it.
-/

namespace Vexil.Kube

open Vexil.Lib

/-! ## Calls -/

/-- An error of the API. `reason` is set when the server understood the request
and refused it; validation failures, timeouts and the like have none. -/
structure ApiError where
  reason : Option Reject
  message : String
  deriving DecidableEq, Repr

/-- `errors.IsNotFound`. -/
def ApiError.isNotFound (e : ApiError) : Bool := e.reason = some .notFound

def ApiError.ofReject (r : Reject) : ApiError where
  reason := some r
  message :=
    match r with
    | .notFound => "not found"
    | .alreadyExists => "already exists"
    | .conflict => "the object has been modified"

/-- The calls of the operator, the API server and the scanner. FeatureFlags are
listed everywhere (`none`) or in the namespace of some object, and the rest in
the namespace of some object: never in `""`, which for the API is everywhere. -/
inductive KubeCall where
  | getFlag (key : ObjectKey)
  | listFlags (ns : Option String)
  | createFlag (f : FeatureFlag)
  | updateFlag (f : FeatureFlag)
  | updateFlagStatus (f : FeatureFlag)
  | deleteFlag (key : ObjectKey)
  | listDeployments (ns : String) (selector : GoMap String → Bool)
  | updateDeployment (d : Deployment)
  | listStatefulSets (ns : String)
  | listDaemonSets (ns : String)
  | getConfigMap (key : ObjectKey)
  | listConfigMaps (ns : String) (matching : GoMap String → Bool)
  | createConfigMap (cm : ConfigMap)
  | updateConfigMap (cm : ConfigMap)

/-- What a call gives back when it succeeds. -/
abbrev KubeCall.Value : KubeCall → Type
  | .getFlag _ | .createFlag _ | .updateFlag _ | .updateFlagStatus _ =>
      FeatureFlag
  | .listFlags _ => List FeatureFlag
  | .deleteFlag _ => Unit
  | .listDeployments _ _ => List Deployment
  | .updateDeployment _ => Deployment
  | .listStatefulSets _ => List StatefulSet
  | .listDaemonSets _ => List DaemonSet
  | .getConfigMap _ | .createConfigMap _ | .updateConfigMap _ => ConfigMap
  | .listConfigMaps _ _ => List ConfigMap

abbrev KubeCall.Reply (c : KubeCall) : Type := Except ApiError c.Value

abbrev KubeEvent := Event KubeCall KubeCall.Reply

/-- The calls that only read. -/
def KubeCall.isRead : KubeCall → Bool
  | .getFlag _ | .listFlags _ | .listDeployments _ _ | .listStatefulSets _
  | .listDaemonSets _ | .getConfigMap _ | .listConfigMaps _ _ => true
  | _ => false

/-! ## The cluster -/

structure Cluster where
  flags : VTable FeatureFlag := .empty
  deployments : VTable Deployment := .empty
  statefulSets : VTable StatefulSet := .empty
  daemonSets : VTable DaemonSet := .empty
  configMaps : VTable ConfigMap := .empty
  now : Nat := 0

/-- A FeatureFlag as the server stores it on creation. -/
def Cluster.newFlag (s : Cluster) (f : FeatureFlag) : FeatureFlag :=
  { f with
    metadata.generation := 1
    metadata.creationTimestamp := s.now
    status := {} }

/-- A write to the main resource: the status stays, and a new spec is a new
generation. The spec of `new` is as the server has it. -/
def mergeFlag (old new : FeatureFlag) : FeatureFlag :=
  { new with
    metadata.resourceVersion := old.metadata.resourceVersion
    metadata.generation :=
      if new.spec = old.spec then old.metadata.generation
      else old.metadata.generation + 1
    metadata.creationTimestamp := old.metadata.creationTimestamp
    status := old.status }

/-- The write of a client that sends `new`. -/
def mergeSent (old new : FeatureFlag) : FeatureFlag :=
  mergeFlag old new.received

/-- A write to the status subresource. -/
def mergeFlagStatus (old new : FeatureFlag) : FeatureFlag :=
  { old with status := new.status }

/-- An object without a status subresource is replaced as it is. -/
def mergeWhole {α : Type} (_old new : α) : α := new

/-- Look an object up, or say that it is not there. -/
def found {α : Type} : Option α → Except ApiError α
  | some a => .ok a
  | none => .error (.ofReject .notFound)

/-- The answer of a write, in the API's error type. -/
def written {α : Type} : Except Reject α → Except ApiError α
  | .ok a => .ok a
  | .error r => .error (.ofReject r)

/-- The faultless answer from the latest state. -/
def KubeCall.serve : (c : KubeCall) → Cluster → c.Reply × Cluster
  | .getFlag key, s => (found (s.flags.get? key), s)
  | .listFlags ns, s =>
      (.ok (s.flags.rows.items.filter fun f =>
        ns.all (· = f.metadata.ns)), s)
  | .createFlag f, s =>
      let r := s.flags.create (s.newFlag f.received)
      (written r.1, { s with flags := r.2 })
  | .updateFlag f, s =>
      let r := s.flags.update mergeSent f
      (written r.1, { s with flags := r.2 })
  | .updateFlagStatus f, s =>
      let r := s.flags.update mergeFlagStatus f
      (written r.1, { s with flags := r.2 })
  | .deleteFlag key, s =>
      match s.flags.get? key with
      | none => (.error (.ofReject .notFound), s)
      | some _ => (.ok (), { s with flags := s.flags.remove key })
  | .listDeployments ns selector, s =>
      (.ok (s.deployments.rows.items.filter fun d =>
        d.metadata.ns = ns ∧ selector d.metadata.labels), s)
  | .updateDeployment d, s =>
      let r := s.deployments.update mergeWhole d
      (written r.1, { s with deployments := r.2 })
  | .listStatefulSets ns, s =>
      (.ok (s.statefulSets.rows.items.filter fun d => d.metadata.ns = ns), s)
  | .listDaemonSets ns, s =>
      (.ok (s.daemonSets.rows.items.filter fun d => d.metadata.ns = ns), s)
  | .getConfigMap key, s => (found (s.configMaps.get? key), s)
  | .listConfigMaps ns matching, s =>
      (.ok (s.configMaps.rows.items.filter fun c =>
        c.metadata.ns = ns ∧ matching c.metadata.labels), s)
  | .createConfigMap cm, s =>
      let r := s.configMaps.create cm
      (written r.1, { s with configMaps := r.2 })
  | .updateConfigMap cm, s =>
      let r := s.configMaps.update mergeWhole cm
      (written r.1, { s with configMaps := r.2 })

/-- A call that failed on the way: the reply is an error the server gave no
reason for, and nothing happened. -/
def KubeCall.serveOr (fault : Option String) (c : KubeCall) (s : Cluster) :
    c.Reply × Cluster :=
  match fault with
  | none => c.serve s
  | some message => (.error ⟨none, message⟩, s)

/-- The next call fails or not by a plan; calls after the plan succeed. -/
def KubeCall.servePlan (c : KubeCall) (s : List (Option String) × Cluster) :
    c.Reply × List (Option String) × Cluster :=
  let r := c.serveOr s.1.head?.join s.2
  (r.1, s.1.tail, r.2)

/-- Reads see the latest state; any call may fail. -/
def KubeStep (s : Cluster) (e : KubeEvent) (s' : Cluster) : Prop :=
  ∃ fault, e.call.serveOr fault s = (e.reply, s')

/-- No call fails. -/
abbrev CleanStep : Cluster → KubeEvent → Cluster → Prop :=
  Answers KubeCall.serve

theorem CleanStep.kubeStep {s s' : Cluster} {e : KubeEvent}
    (h : CleanStep s e s') : KubeStep s e s' := ⟨none, h⟩

theorem kubeStep_cases {s s' : Cluster} {e : KubeEvent} (h : KubeStep s e s') :
    CleanStep s e s' ∨
      ∃ message, e.reply = .error ⟨none, message⟩ ∧ s' = s := by
  obtain ⟨fault, h⟩ := h
  cases fault with
  | none => exact .inl h
  | some message =>
      refine .inr ⟨message, ?_⟩
      have h' : ((.error ⟨none, message⟩ : e.call.Reply), s) = (e.reply, s') := h
      rw [Prod.mk.injEq] at h'
      exact ⟨h'.1.symm, h'.2.symm⟩

theorem servePlan_kubeStep {s s' : List (Option String) × Cluster}
    {e : KubeEvent} (h : Answers KubeCall.servePlan s e s') :
    KubeStep s.2 e s'.2 := by
  have hreply : (e.call.servePlan s).1 = e.reply := congrArg Prod.fst h
  have hstate : (e.call.servePlan s).2 = s' := congrArg Prod.snd h
  have hcluster : (e.call.servePlan s).2.2 = s'.2 := by rw [hstate]
  exact ⟨s.1.head?.join, Prod.ext hreply hcluster⟩

theorem kubeStep_ok {s s' : Cluster} {c : KubeCall} {v : c.Value}
    (h : KubeStep s ⟨c, .ok v⟩ s') : c.serve s = (.ok v, s') := by
  rcases kubeStep_cases h with h | ⟨_, he, _⟩
  · exact h
  · cases he

/-- A read leaves the cluster alone. -/
theorem KubeStep.of_read {s s' : Cluster} {e : KubeEvent}
    (hread : e.call.isRead = true) (h : KubeStep s e s') : s' = s := by
  rcases kubeStep_cases h with h | ⟨_, _, h⟩
  · obtain ⟨c, r⟩ := e
    cases c <;> first
      | (exact (congrArg Prod.snd h).symm)
      | (simp [KubeCall.isRead] at hread)
  · exact h

/-! ## Reads from a cache -/

/-- Reads may be answered with any version an object ever had; a write is
accepted or refused by the latest state as before. -/
def StaleStep (s : Cluster) : KubeEvent → Cluster → Prop
  | ⟨.getFlag key, r⟩, s' =>
      s' = s ∧ ∀ f, r = .ok f → f ∈ s.flags.past ∧ f.metadata.objectKey = key
  | ⟨.listFlags _, r⟩, s' =>
      s' = s ∧ ∀ fs, r = .ok fs → ∀ f ∈ fs, f ∈ s.flags.past
  | ⟨.listDeployments ns selector, r⟩, s' =>
      s' = s ∧ ∀ ds, r = .ok ds → ∀ d ∈ ds, d ∈ s.deployments.past ∧
        d.metadata.ns = ns ∧ selector d.metadata.labels = true
  | ⟨.listStatefulSets _, r⟩, s' =>
      s' = s ∧ ∀ ds, r = .ok ds → ∀ d ∈ ds, d ∈ s.statefulSets.past
  | ⟨.listDaemonSets _, r⟩, s' =>
      s' = s ∧ ∀ ds, r = .ok ds → ∀ d ∈ ds, d ∈ s.daemonSets.past
  | ⟨.getConfigMap key, r⟩, s' =>
      s' = s ∧ ∀ cm, r = .ok cm →
        cm ∈ s.configMaps.past ∧ cm.metadata.objectKey = key
  | ⟨.listConfigMaps _ _, r⟩, s' =>
      s' = s ∧ ∀ cms, r = .ok cms → ∀ cm ∈ cms, cm ∈ s.configMaps.past
  | ⟨.createFlag f, r⟩, s' => KubeStep s ⟨.createFlag f, r⟩ s'
  | ⟨.updateFlag f, r⟩, s' => KubeStep s ⟨.updateFlag f, r⟩ s'
  | ⟨.updateFlagStatus f, r⟩, s' => KubeStep s ⟨.updateFlagStatus f, r⟩ s'
  | ⟨.deleteFlag key, r⟩, s' => KubeStep s ⟨.deleteFlag key, r⟩ s'
  | ⟨.updateDeployment d, r⟩, s' => KubeStep s ⟨.updateDeployment d, r⟩ s'
  | ⟨.createConfigMap cm, r⟩, s' => KubeStep s ⟨.createConfigMap cm, r⟩ s'
  | ⟨.updateConfigMap cm, r⟩, s' => KubeStep s ⟨.updateConfigMap cm, r⟩ s'

/-- A read has no effect, and a write has that of the latest state. -/
theorem StaleStep.cases {s s' : Cluster} {e : KubeEvent}
    (h : StaleStep s e s') :
    e.call.isRead = true ∧ s' = s ∨ KubeStep s e s' := by
  obtain ⟨c, r⟩ := e
  cases c with
  | getFlag | listFlags | listDeployments | listStatefulSets | listDaemonSets
  | getConfigMap | listConfigMaps => exact .inl ⟨rfl, h.1⟩
  | createFlag | updateFlag | updateFlagStatus | deleteFlag | updateDeployment
  | createConfigMap | updateConfigMap => exact .inr h

theorem found_ok {α : Type} {o : Option α} {a : α} (h : found o = .ok a) :
    o = some a := by
  cases o with
  | none => cases h
  | some b => cases h; rfl

/-- The latest state is one of the states a cache may hold. -/
theorem KubeStep.stale {s s' : Cluster} {e : KubeEvent} (h : KubeStep s e s') :
    StaleStep s e s' := by
  obtain ⟨c, r⟩ := e
  cases c with
  | createFlag f => exact h
  | updateFlag f => exact h
  | updateFlagStatus f => exact h
  | deleteFlag key => exact h
  | updateDeployment d => exact h
  | createConfigMap cm => exact h
  | updateConfigMap cm => exact h
  | getFlag key =>
      refine ⟨h.of_read rfl, fun f hf => ?_⟩
      subst hf
      have hget := found_ok (congrArg Prod.fst (kubeStep_ok h))
      exact ⟨VTable.past_of_get? hget, VTable.key_of_get? hget⟩
  | listFlags ns =>
      refine ⟨h.of_read rfl, fun fs hfs f hf => ?_⟩
      subst hfs
      have hlist := Except.ok.inj (congrArg Prod.fst (kubeStep_ok h))
      rw [← hlist] at hf
      exact s.flags.rows_past f (List.mem_filter.mp hf).1
  | listDeployments ns selector =>
      refine ⟨h.of_read rfl, fun ds hds d hd => ?_⟩
      subst hds
      have hlist := Except.ok.inj (congrArg Prod.fst (kubeStep_ok h))
      rw [← hlist] at hd
      obtain ⟨hmem, hsel⟩ := List.mem_filter.mp hd
      exact ⟨s.deployments.rows_past d hmem, by simpa using hsel⟩
  | listStatefulSets ns =>
      refine ⟨h.of_read rfl, fun ds hds d hd => ?_⟩
      subst hds
      have hlist := Except.ok.inj (congrArg Prod.fst (kubeStep_ok h))
      rw [← hlist] at hd
      exact s.statefulSets.rows_past d (List.mem_filter.mp hd).1
  | listDaemonSets ns =>
      refine ⟨h.of_read rfl, fun ds hds d hd => ?_⟩
      subst hds
      have hlist := Except.ok.inj (congrArg Prod.fst (kubeStep_ok h))
      rw [← hlist] at hd
      exact s.daemonSets.rows_past d (List.mem_filter.mp hd).1
  | getConfigMap key =>
      refine ⟨h.of_read rfl, fun cm hcm => ?_⟩
      subst hcm
      have hget := found_ok (congrArg Prod.fst (kubeStep_ok h))
      exact ⟨VTable.past_of_get? hget, VTable.key_of_get? hget⟩
  | listConfigMaps ns matching =>
      refine ⟨h.of_read rfl, fun cms hcms cm hcm => ?_⟩
      subst hcms
      have hlist := Except.ok.inj (congrArg Prod.fst (kubeStep_ok h))
      rw [← hlist] at hcm
      exact s.configMaps.rows_past cm (List.mem_filter.mp hcm).1

/-! ## What an accepted write did

One lemma per write: the version check that let it through, and the object that
is stored now. An error means nothing happened. -/

theorem written_error {α : Type} {r : Except Reject α} {e : ApiError}
    (h : written r = .error e) : ∃ why, r = .error why := by
  cases r with
  | ok b => cases h
  | error why => exact ⟨why, rfl⟩

theorem written_ok {α : Type} {r : Except Reject α} {a : α}
    (h : written r = .ok a) : r = .ok a := by
  cases r with
  | ok b => cases h; rfl
  | error e => cases h

theorem kubeStep_createFlag {s s' : Cluster} {f g : FeatureFlag}
    (h : KubeStep s ⟨.createFlag f, .ok g⟩ s') :
    s.flags.get? f.metadata.objectKey = none ∧
      s' = { s with flags := s.flags.write (s.newFlag f.received) } := by
  have h := kubeStep_ok h
  have hok : (s.flags.create (s.newFlag f.received)).1 = .ok g :=
    written_ok (congrArg Prod.fst h)
  have hw : s.flags.create (s.newFlag f.received) =
      (.ok g, (s.flags.create (s.newFlag f.received)).2) := Prod.ext hok rfl
  obtain ⟨hnone, _, ht⟩ := VTable.create_ok hw
  have hs : s' =
      { s with flags := (s.flags.create (s.newFlag f.received)).2 } :=
    (congrArg Prod.snd h).symm
  exact ⟨hnone, by rw [hs, ht]⟩

theorem kubeStep_updateFlag {s s' : Cluster} {f g : FeatureFlag}
    (h : KubeStep s ⟨.updateFlag f, .ok g⟩ s') :
    ∃ old, s.flags.get? f.metadata.objectKey = some old ∧
      f.metadata.resourceVersion = old.metadata.resourceVersion ∧
      (mergeSent old f = old ∧ s' = s ∨
        s' = { s with flags := s.flags.write (mergeSent old f) }) := by
  have h := kubeStep_ok h
  have hok : (s.flags.update mergeSent f).1 = .ok g :=
    written_ok (congrArg Prod.fst h)
  have hw : s.flags.update mergeSent f = (.ok g, (s.flags.update mergeSent f).2) :=
    Prod.ext hok rfl
  obtain ⟨old, hold, hv, ht⟩ := VTable.update_ok hw
  have hs : s' = { s with flags := (s.flags.update mergeSent f).2 } :=
    (congrArg Prod.snd h).symm
  refine ⟨old, hold, hv, ?_⟩
  rcases ht with ⟨hsame, _, ht⟩ | ⟨_, ht⟩
  · exact .inl ⟨hsame, by rw [hs, ht]⟩
  · exact .inr (by rw [hs, ht])

theorem kubeStep_updateFlagStatus {s s' : Cluster} {f g : FeatureFlag}
    (h : KubeStep s ⟨.updateFlagStatus f, .ok g⟩ s') :
    ∃ old, s.flags.get? f.metadata.objectKey = some old ∧
      f.metadata.resourceVersion = old.metadata.resourceVersion ∧
      (mergeFlagStatus old f = old ∧ s' = s ∨
        s' = { s with flags := s.flags.write (mergeFlagStatus old f) }) := by
  have h := kubeStep_ok h
  have hok : (s.flags.update mergeFlagStatus f).1 = .ok g :=
    written_ok (congrArg Prod.fst h)
  have hw : s.flags.update mergeFlagStatus f = (.ok g, (s.flags.update mergeFlagStatus f).2) :=
    Prod.ext hok rfl
  obtain ⟨old, hold, hv, ht⟩ := VTable.update_ok hw
  have hs : s' = { s with flags := (s.flags.update mergeFlagStatus f).2 } :=
    (congrArg Prod.snd h).symm
  refine ⟨old, hold, hv, ?_⟩
  rcases ht with ⟨hsame, _, ht⟩ | ⟨_, ht⟩
  · exact .inl ⟨hsame, by rw [hs, ht]⟩
  · exact .inr (by rw [hs, ht])

theorem kubeStep_deleteFlag {s s' : Cluster} {key : ObjectKey} {u : Unit}
    (h : KubeStep s ⟨.deleteFlag key, .ok u⟩ s') :
    s' = { s with flags := s.flags.remove key } := by
  have h := kubeStep_ok h
  simp only [KubeCall.serve] at h
  split at h
  · cases h
  · exact (congrArg Prod.snd h).symm

theorem kubeStep_updateDeployment {s s' : Cluster} {d d' : Deployment}
    (h : KubeStep s ⟨.updateDeployment d, .ok d'⟩ s') :
    ∃ old, s.deployments.get? d.metadata.objectKey = some old ∧
      d.metadata.resourceVersion = old.metadata.resourceVersion ∧
      (d = old ∧ s' = s ∨
        s' = { s with deployments := s.deployments.write d }) := by
  have h := kubeStep_ok h
  have hok : (s.deployments.update mergeWhole d).1 = .ok d' :=
    written_ok (congrArg Prod.fst h)
  have hw : s.deployments.update mergeWhole d = (.ok d', (s.deployments.update mergeWhole d).2) :=
    Prod.ext hok rfl
  obtain ⟨old, hold, hv, ht⟩ := VTable.update_ok hw
  have hs : s' = { s with deployments := (s.deployments.update mergeWhole d).2 } :=
    (congrArg Prod.snd h).symm
  refine ⟨old, hold, hv, ?_⟩
  rcases ht with ⟨hsame, _, ht⟩ | ⟨_, ht⟩
  · exact .inl ⟨hsame, by rw [hs, ht]⟩
  · exact .inr (by rw [hs, ht]; rfl)

theorem kubeStep_createConfigMap {s s' : Cluster} {cm cm' : ConfigMap}
    (h : KubeStep s ⟨.createConfigMap cm, .ok cm'⟩ s') :
    s.configMaps.get? cm.metadata.objectKey = none ∧
      s' = { s with configMaps := s.configMaps.write cm } := by
  have h := kubeStep_ok h
  have hok : (s.configMaps.create cm).1 = .ok cm' :=
    written_ok (congrArg Prod.fst h)
  have hw : s.configMaps.create cm = (.ok cm', (s.configMaps.create cm).2) :=
    Prod.ext hok rfl
  obtain ⟨hnone, _, ht⟩ := VTable.create_ok hw
  have hs : s' = { s with configMaps := (s.configMaps.create cm).2 } :=
    (congrArg Prod.snd h).symm
  exact ⟨hnone, by rw [hs, ht]⟩

theorem kubeStep_updateConfigMap {s s' : Cluster} {cm cm' : ConfigMap}
    (h : KubeStep s ⟨.updateConfigMap cm, .ok cm'⟩ s') :
    ∃ old, s.configMaps.get? cm.metadata.objectKey = some old ∧
      cm.metadata.resourceVersion = old.metadata.resourceVersion ∧
      (cm = old ∧ s' = s ∨
        s' = { s with configMaps := s.configMaps.write cm }) := by
  have h := kubeStep_ok h
  have hok : (s.configMaps.update mergeWhole cm).1 = .ok cm' :=
    written_ok (congrArg Prod.fst h)
  have hw : s.configMaps.update mergeWhole cm = (.ok cm', (s.configMaps.update mergeWhole cm).2) :=
    Prod.ext hok rfl
  obtain ⟨old, hold, hv, ht⟩ := VTable.update_ok hw
  have hs : s' = { s with configMaps := (s.configMaps.update mergeWhole cm).2 } :=
    (congrArg Prod.snd h).symm
  refine ⟨old, hold, hv, ?_⟩
  rcases ht with ⟨hsame, _, ht⟩ | ⟨_, ht⟩
  · exact .inl ⟨hsame, by rw [hs, ht]⟩
  · exact .inr (by rw [hs, ht]; rfl)

/-- A call that reported an error did nothing. -/
theorem KubeStep.of_error {s s' : Cluster} {c : KubeCall} {err : ApiError}
    (h : KubeStep s ⟨c, .error err⟩ s') : s' = s := by
  rcases kubeStep_cases h with h | ⟨_, _, h⟩
  · have hfst := congrArg Prod.fst h
    have hsnd : s' = (c.serve s).2 := (congrArg Prod.snd h).symm
    rw [hsnd]
    cases c with
    | getFlag | listFlags | listDeployments | listStatefulSets | listDaemonSets
    | getConfigMap | listConfigMaps => rfl
    | createFlag f =>
        obtain ⟨r, hr⟩ := written_error hfst
        have ht : (s.flags.create (s.newFlag f.received)).2 = s.flags :=
          VTable.create_error hr
        simp only [KubeCall.serve, ht]
    | updateFlag f =>
        obtain ⟨r, hr⟩ := written_error hfst
        have ht : (s.flags.update mergeSent f).2 = s.flags :=
          VTable.update_error hr
        simp only [KubeCall.serve, ht]
    | updateFlagStatus f =>
        obtain ⟨r, hr⟩ := written_error hfst
        have ht : (s.flags.update mergeFlagStatus f).2 = s.flags :=
          VTable.update_error hr
        simp only [KubeCall.serve, ht]
    | updateDeployment d =>
        obtain ⟨r, hr⟩ := written_error hfst
        have ht : (s.deployments.update mergeWhole d).2 = s.deployments :=
          VTable.update_error hr
        simp only [KubeCall.serve, ht]
    | createConfigMap cm =>
        obtain ⟨r, hr⟩ := written_error hfst
        have ht : (s.configMaps.create cm).2 = s.configMaps :=
          VTable.create_error hr
        simp only [KubeCall.serve, ht]
    | updateConfigMap cm =>
        obtain ⟨r, hr⟩ := written_error hfst
        have ht : (s.configMaps.update mergeWhole cm).2 = s.configMaps :=
          VTable.update_error hr
        simp only [KubeCall.serve, ht]
    | deleteFlag key =>
        simp only [KubeCall.serve] at hfst ⊢
        split at hfst
        · rfl
        · cases hfst
  · exact h

/-! ## Other clients

Whoever else writes to the cluster is not described by a program. Any object may
be put in place of what is there, or deleted, at any time; only what the server
does with a FeatureFlag is kept. It is given with the spec that is stored of it,
in which a client that is not in Go may have set any zero. -/

inductive OtherWrite where
  | putFlag (f : FeatureFlag)
  | putFlagStatus (f : FeatureFlag)
  | deleteFlag (key : ObjectKey)
  | putDeployment (d : Deployment)
  | deleteDeployment (key : ObjectKey)
  | putConfigMap (cm : ConfigMap)
  | deleteConfigMap (key : ObjectKey)
  | tick (now : Nat)

/-- Store the result of a write, unless it changed nothing. -/
def Cluster.writeFlag (s : Cluster) (old new : FeatureFlag) : Cluster :=
  if new = old then s else { s with flags := s.flags.write new }

def OtherWrite.apply (w : OtherWrite) (s : Cluster) : Cluster :=
  match w with
  | .putFlag f =>
      match s.flags.get? f.metadata.objectKey with
      | none => { s with flags := s.flags.write (s.newFlag f) }
      | some old => s.writeFlag old (mergeFlag old f)
  | .putFlagStatus f =>
      match s.flags.get? f.metadata.objectKey with
      | none => s
      | some old => s.writeFlag old (mergeFlagStatus old f)
  | .deleteFlag key => { s with flags := s.flags.remove key }
  | .putDeployment d => { s with deployments := s.deployments.write d }
  | .deleteDeployment key =>
      { s with deployments := s.deployments.remove key }
  | .putConfigMap cm => { s with configMaps := s.configMaps.write cm }
  | .deleteConfigMap key => { s with configMaps := s.configMaps.remove key }
  | .tick now => { s with now := now }

/-- The flag a write is about. -/
def OtherWrite.flagKey : OtherWrite → Option ObjectKey
  | .putFlag f | .putFlagStatus f => some f.metadata.objectKey
  | .deleteFlag key => some key
  | _ => none

theorem flags_writeFlag_ne {s : Cluster} {old new : FeatureFlag} {k : ObjectKey}
    (h : k ≠ new.metadata.objectKey) :
    (s.writeFlag old new).flags.get? k = s.flags.get? k := by
  unfold Cluster.writeFlag
  split
  · rfl
  · exact (VTable.get?_write _ _ k).trans (if_neg h)

theorem deployments_writeFlag {s : Cluster} {old new : FeatureFlag} :
    (s.writeFlag old new).deployments = s.deployments := by
  unfold Cluster.writeFlag
  split <;> rfl

/-- A write is about one flag at most. -/
theorem OtherWrite.flags_apply_ne {w : OtherWrite} {s : Cluster}
    {k : ObjectKey} (h : w.flagKey ≠ some k) :
    (w.apply s).flags.get? k = s.flags.get? k := by
  cases w with
  | putFlag f =>
      have hk : k ≠ f.metadata.objectKey := fun hk => h (by rw [hk]; rfl)
      simp only [apply]
      split
      · exact (VTable.get?_write _ _ k).trans (if_neg hk)
      · exact flags_writeFlag_ne hk
  | putFlagStatus f =>
      have hk : k ≠ f.metadata.objectKey := fun hk => h (by rw [hk]; rfl)
      simp only [apply]
      split
      · rfl
      · next old hold =>
          have hkey : old.metadata.objectKey = f.metadata.objectKey :=
            VTable.key_of_get? hold
          exact flags_writeFlag_ne (hkey ▸ hk)
  | deleteFlag key =>
      have hk : k ≠ key := fun hk => h (by rw [hk]; rfl)
      exact (VTable.get?_remove _ _ k).trans (if_neg hk)
  | putDeployment | deleteDeployment | putConfigMap | deleteConfigMap | tick =>
      rfl

/-- The events of a system: calls of programs, answered as `StaleStep` allows,
and writes of others. -/
def SystemStep {ι : Type} (s : Cluster) :
    Label ι KubeCall KubeCall.Reply OtherWrite → Cluster → Prop
  | .own _ e, s' => StaleStep s e s'
  | .other w, s' => s' = w.apply s

end Vexil.Kube
