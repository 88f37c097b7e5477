import Vexil.Operator.Attempt

/-!
# How a delivery ends

Each half of the delivery ends in one of two ways. Either no call of it was
lost, it returns no error, and every object it is about was written or did not
have to be; or one was lost, it returns an error, and what it was to establish
holds afterwards if and only if it did before: the Deployment whose update was
lost is one that did not have the value.

A lost call is one that fails with no reason given. The errors the server has a
reason for are its answers, and a delivery that sees the latest state gets none
that stops it.
-/

namespace Vexil.Operator

open Vexil.Lib Vexil.Kube

/-! ## Lost calls -/

/-- The call failed on the way. -/
def Lost (e : KubeEvent) : Prop := ∃ message, e.reply = .error ⟨none, message⟩

theorem not_lost_ok {c : KubeCall} {v : c.Value} : ¬ Lost ⟨c, .ok v⟩ := by
  rintro ⟨message, h⟩
  cases h

theorem cleanStep_of_not_lost {s s' : Cluster} {e : KubeEvent}
    (h : KubeStep s e s') (hlost : ¬ Lost e) : CleanStep s e s' := by
  rcases kubeStep_cases h with hclean | ⟨message, hreply, _⟩
  · exact hclean
  · exact absurd ⟨message, hreply⟩ hlost

theorem completes_clean {α : Type} {p : OpProg α} {s s' : Cluster}
    {tr : List KubeEvent} {a : α} (h : Completes KubeStep p s tr a s')
    (hlost : ∀ e ∈ tr, ¬ Lost e) : Completes CleanStep p s tr a s' := by
  obtain ⟨hpath, hrun⟩ := h
  refine ⟨hpath, ?_⟩
  clear hpath
  induction hrun with
  | nil => exact .nil
  | cons hstep _ ih =>
      obtain ⟨he, hes⟩ := List.forall_mem_cons.mp hlost
      exact .cons (cleanStep_of_not_lost hstep he) (ih hes)

/-! ## The ConfigMap -/

theorem valueAt_write (s : Cluster) (cm : ConfigMap) (k : ObjectKey)
    (key : String) :
    valueAt { s with configMaps := s.configMaps.write cm } k key =
      if k = cm.metadata.objectKey then (orEmpty cm.data).lookup key
      else valueAt s k key := by
  have hget := VTable.get?_write s.configMaps cm k
  rw [show Versioned.key cm = cm.metadata.objectKey from rfl] at hget
  unfold valueAt configMapAt
  rw [hget]
  split <;> rfl

/-- The ConfigMap is there without the key, and the value is one that a missing
key reads as. -/
def KeyMissed (k : ObjectKey) (key value : String) (s : Cluster) : Prop :=
  value = "" ∧ configMapAt s k ≠ none ∧ valueAt s k key = none

theorem valueAt_of_get {k : ObjectKey} {s : Cluster} {cm : ConfigMap}
    (hcm : s.configMaps.get? k = some cm) (key : String) :
    valueAt s k key = (orEmpty cm.data).lookup key := by
  rw [valueAt, configMapAt, hcm]
  rfl

theorem keyMissed_of_get {k : ObjectKey} {key value : String} {s : Cluster}
    {cm : ConfigMap} (hcm : s.configMaps.get? k = some cm) :
    KeyMissed k key value s ↔
      value = "" ∧ (orEmpty cm.data).lookup key = none := by
  have hat : configMapAt s k ≠ none := by
    rw [configMapAt, hcm]
    exact Option.some_ne_none _
  rw [KeyMissed, valueAt_of_get hcm]
  simp [hat]

/-- The value is under the key, unless a missing key was taken for an empty
value, and no other key is touched. -/
structure ConfigMapDelivers (k : ObjectKey) (key value : String)
    (s s' : Cluster) : Prop where
  rest : s' = { s with configMaps := s'.configMaps }
  others : ∀ other, other ≠ key → valueAt s' k other = valueAt s k other
  has : valueAt s' k key = some value ↔ ¬ KeyMissed k key value s

/-- A map with the entry was written under the name. -/
theorem ConfigMapDelivers.of_write {k : ObjectKey} {key value : String}
    {s : Cluster} {cm : ConfigMap} (hkey : cm.metadata.objectKey = k)
    (hothers : ∀ other, other ≠ key →
      (orEmpty cm.data).lookup other = valueAt s k other)
    (hhas : (orEmpty cm.data).lookup key = some value)
    (hmissed : ¬ KeyMissed k key value s) :
    ConfigMapDelivers k key value s
      { s with configMaps := s.configMaps.write cm } where
  rest := rfl
  others other hne := by
    rw [valueAt_write, if_pos hkey.symm]
    exact hothers other hne
  has := by
    rw [valueAt_write, if_pos hkey.symm]
    exact iff_of_true hhas hmissed

/-- An update of a map that reads as another value. -/
theorem ConfigMapDelivers.updated {k : ObjectKey} {key value : String}
    {s s' : Cluster} {cm cm' : ConfigMap}
    (hcm : s.configMaps.get? k = some cm)
    (hne : (orEmpty cm.data).index key ≠ value)
    (h : KubeStep s ⟨.updateConfigMap { cm with
      data := some ((orEmpty cm.data).insert key value) }, .ok cm'⟩ s') :
    ConfigMapDelivers k key value s s' := by
  have hkey : cm.metadata.objectKey = k := VTable.key_of_get? hcm
  obtain ⟨old, hold, _, hs⟩ := kubeStep_updateConfigMap h
  have hold' : s.configMaps.get? cm.metadata.objectKey = some old := hold
  rw [hkey, hcm] at hold'
  obtain rfl := Option.some.inj hold'
  rcases hs with ⟨hsame, _⟩ | rfl
  · refine absurd ?_ hne
    rw [← hsame, orEmpty_some, GoMap.index, Finmap.lookup_insert]
    rfl
  · refine .of_write hkey (fun other hother => ?_) ?_ ?_
    · rw [valueAt_of_get hcm, orEmpty_some, GoMap.lookup_insert,
        if_neg hother]
    · rw [orEmpty_some, Finmap.lookup_insert]
    · rw [keyMissed_of_get hcm]
      rintro ⟨rfl, hnone⟩
      exact hne (by rw [GoMap.index, hnone]; rfl)

/-- A map that reads as the value has it, or does not have the key. -/
theorem ConfigMapDelivers.unneeded {k : ObjectKey} {key value : String}
    {s : Cluster} {cm : ConfigMap} (hcm : s.configMaps.get? k = some cm)
    (heq : (orEmpty cm.data).index key = value) :
    ConfigMapDelivers k key value s s where
  rest := rfl
  others _ _ := rfl
  has := by
    rw [keyMissed_of_get hcm, valueAt_of_get hcm]
    rw [GoMap.index] at heq
    cases hlookup : (orEmpty cm.data).lookup key with
    | none =>
        rw [hlookup] at heq
        simp [← heq]
    | some v =>
        rw [hlookup] at heq
        simpa using heq

theorem configMap_ok {f : FeatureFlag} {delivery : ConfigMapDelivery}
    {value : String} {s s' : Cluster} {tr : List KubeEvent}
    (h : Completes KubeStep (deliverViaConfigMap f delivery value) s tr
      (.ok ()) s') :
    (∀ e ∈ tr, ¬ Lost e) ∧
    ConfigMapDelivers ⟨f.metadata.ns, delivery.configMapName⟩ delivery.key value
      s s' := by
  cases configMap_cases id h with
  | @created err cm _ hnf hnone hcreate =>
      have hat : configMapAt s
          ⟨f.metadata.ns, delivery.configMapName⟩ = none := by
        rw [configMapAt, hnone]
        rfl
      have hget : ¬ Lost ⟨.getConfigMap ⟨f.metadata.ns,
          delivery.configMapName⟩, .error err⟩ := by
        rintro ⟨message, hreply⟩
        cases hreply
        cases hnf
      obtain ⟨_, rfl⟩ := kubeStep_createConfigMap hcreate
      refine ⟨List.forall_mem_cons.mpr ⟨hget,
        List.forall_mem_singleton.mpr not_lost_ok⟩,
        .of_write rfl (fun other hne => ?_) ?_ ?_⟩
      · rw [valueAt, hat]
        exact (GoMap.lookup_single ..).trans (if_neg hne)
      · exact (GoMap.lookup_single ..).trans (if_pos rfl)
      · exact fun hmissed => hmissed.2.1 hat
  | updated hcm hne hupdate =>
      exact ⟨List.forall_mem_cons.mpr ⟨not_lost_ok,
        List.forall_mem_singleton.mpr not_lost_ok⟩, .updated hcm hne hupdate⟩
  | unneeded hcm heq =>
      exact ⟨List.forall_mem_singleton.mpr not_lost_ok, .unneeded hcm heq⟩

/-- An error comes from a lost call, and then nothing was written. -/
theorem configMap_error {f : FeatureFlag} {delivery : ConfigMapDelivery}
    {value err : String} {s s' : Cluster} {tr : List KubeEvent}
    (h : Completes KubeStep (deliverViaConfigMap f delivery value) s tr
      (.error err) s') : (∃ e ∈ tr, Lost e) ∧ s' = s := by
  constructor
  · by_contra hlost
    rw [not_exists] at hlost
    cases configMap_clean (completes_clean h fun e he hl => hlost e ⟨he, hl⟩)
  · cases configMap_cases id h with
    | unread | uncreated | unwritten => rfl

/-! ## The Deployments -/

/-- Every Deployment of a selection carries the value. -/
def AllHave (selects : Deployment → Bool) (envName value : String)
    (s : Cluster) : Prop :=
  ∀ d ∈ s.deployments.rows.items, selects d = true → HasEnv envName value d

instance (selects : Deployment → Bool) (envName value : String) (s : Cluster) :
    Decidable (AllHave selects envName value s) :=
  inferInstanceAs (Decidable (∀ d ∈ s.deployments.rows.items,
    selects d = true → HasEnv envName value d))

theorem updateDeployments_ok {T : Cluster → KubeEvent → Cluster → Prop}
    {flagName envName value : String} {ds : List Deployment} {count n : Nat}
    {s s' : Cluster} {tr : List KubeEvent}
    (h : Completes T (updateDeployments flagName envName value ds count) s tr
      (.ok n) s') : ∀ e ∈ tr, ¬ Lost e := by
  induction ds generalizing s tr count with
  | nil =>
      obtain ⟨rfl, _, _⟩ := completes_ret.mp h
      exact fun _ he => nomatch he
  | cons d ds ih =>
      rw [updateDeployments] at h
      split at h
      · obtain ⟨r, tr', m, rfl, _, hrest⟩ := completes_call.mp h
        cases r with
        | error err => cases (completes_ret.mp hrest).2.1
        | ok d' => exact List.forall_mem_cons.mpr ⟨not_lost_ok, ih hrest⟩
      · exact ih h

/-- The Deployment whose update was lost does not have the value. -/
theorem updateDeployments_error {flagName envName value err : String}
    {ds : List Deployment} {count : Nat} {s s' : Cluster}
    {tr : List KubeEvent}
    (hcur : ∀ d ∈ ds, s.deployments.get? d.metadata.objectKey = some d)
    (hnodup : (ds.map (·.metadata.objectKey)).Nodup)
    (h : Completes KubeStep (updateDeployments flagName envName value ds count)
      s tr (.error err) s') :
    ∃ d ∈ ds, s'.deployments.get? d.metadata.objectKey = some d ∧
      ¬ HasEnv envName value d := by
  induction ds generalizing s tr count with
  | nil => cases (completes_ret.mp h).2.1
  | cons d ds ih =>
      rw [List.map_cons, List.nodup_cons] at hnodup
      obtain ⟨hd, hrest⟩ := List.forall_mem_cons.mp hcur
      rw [updateDeployments] at h
      split at h
      · next hupdated =>
          obtain ⟨r, tr', m, rfl, hstep, h⟩ := completes_call.mp h
          cases r with
          | error err' =>
              refine ⟨d, List.mem_cons_self, ?_, fun hhas => ?_⟩
              · rw [(completes_ret.mp h).2.2, hstep.of_error]
                exact hd
              · rw [injectDeployment_of_hasEnv hhas] at hupdated
                cases hupdated
          | ok d' =>
              have hinj := injects_of_update hd hstep
              obtain ⟨x, hx, hget, hnot⟩ := ih (fun x hx => by
                rw [hinj.other, hrest x hx]
                intro heq
                exact hnodup.1 (heq ▸ List.mem_map_of_mem hx)) hnodup.2 h
              exact ⟨x, .tail _ hx, hget, hnot⟩
      · obtain ⟨x, hx, hget, hnot⟩ := ih hrest hnodup.2 h
        exact ⟨x, .tail _ hx, hget, hnot⟩

/-! What was stored and what is stored after an injection into a selection. -/

section
variable {inject : Deployment → Deployment} {s s' : Cluster}

theorem stored_after (h : ∀ k, deployAt s' k = (deployAt s k).map inject)
    {d : Deployment} (hd : d ∈ s.deployments.rows.items) :
    ∃ d' ∈ s'.deployments.rows.items, d'.content = inject d.content := by
  have hget : s.deployments.get? d.metadata.objectKey = some d :=
    Table.get?_of_mem hd
  have hk := h d.metadata.objectKey
  rw [deployAt, deployAt, hget] at hk
  obtain ⟨d', hd', hcontent⟩ := Option.map_eq_some_iff.mp hk
  exact ⟨d', Table.mem_of_get? hd', hcontent⟩

theorem stored_before (h : ∀ k, deployAt s' k = (deployAt s k).map inject)
    {d' : Deployment} (hd' : d' ∈ s'.deployments.rows.items) :
    ∃ d ∈ s.deployments.rows.items, d'.content = inject d.content := by
  have hget : s'.deployments.get? d'.metadata.objectKey = some d' :=
    Table.get?_of_mem hd'
  have hk := h d'.metadata.objectKey
  rw [deployAt, deployAt, hget, Option.map_map] at hk
  obtain ⟨d, hd, hcontent⟩ := Option.map_eq_some_iff.mp hk.symm
  exact ⟨d, Table.mem_of_get? hd, hcontent.symm⟩

end

/-- A Deployment is selected before and after, and its containers are injected
into if it is. -/
theorem content_injectedIf {ns flagName envName value : String}
    {selector : GoMap String → Bool} {d d' : Deployment}
    (h : d'.content = injectedIf
      (fun d => d.metadata.ns = ns ∧ selector d.metadata.labels) flagName
      envName value d.content) :
    d'.metadata.ns = d.metadata.ns ∧ d'.metadata.labels = d.metadata.labels ∧
    (d.metadata.ns = ns → selector d.metadata.labels = true →
      d'.template.containers = d.template.containers.map fun c =>
        (injectContainer envName value c).1) := by
  have hmeta : d'.content.metadata = d.content.metadata := by
    rw [h, injectedIf]
    split
    · exact metadata_injected _ _ _ _
    · rfl
  have hns : d'.content.metadata.ns = d.content.metadata.ns := by rw [hmeta]
  have hlabels : d'.content.metadata.labels = d.content.metadata.labels := by
    rw [hmeta]
  refine ⟨hns, hlabels, fun hd hsel => ?_⟩
  rw [injectedIf, if_pos (decide_eq_true ⟨hd, hsel⟩)] at h
  have hcontainers := containers_injected flagName envName value d.content
  rw [← h] at hcontainers
  exact hcontainers

section
variable [Apimachinery]

/-- A delivery that returns no error lost no call and injected into all it
selects. -/
theorem envVar_ok {f : FeatureFlag} {delivery : EnvVarDelivery}
    {selector : GoMap String → Bool} {value : String} {n : Nat}
    {s s' : Cluster} {tr : List KubeEvent}
    (hsel : Apimachinery.labelSelectorAsSelector delivery.selector =
      .ok selector)
    (h : Completes KubeStep (deliverViaEnvVar f delivery value) s tr (.ok n)
      s') :
    (∀ e ∈ tr, ¬ Lost e) ∧
    s' = { s with deployments := s'.deployments } ∧
    ∀ k, deployAt s' k = (deployAt s k).map (injectedIf
      (fun d => d.metadata.ns = f.metadata.ns ∧ selector d.metadata.labels)
      f.metadata.name (envVarName f delivery) value) := by
  cases envVar_cases id h with
  | looped hsel' hlist hloop =>
      obtain rfl := Except.ok.inj (hsel.symm.trans hsel')
      obtain ⟨_, hnodup, hcur, hmem⟩ := kubeStep_listDeployments hlist
      have hends := updateDeployments_ends hcur hnodup hloop
      refine ⟨List.forall_mem_cons.mpr ⟨not_lost_ok,
        updateDeployments_ok hloop⟩, hends.rest, fun k => ?_⟩
      exact (hends.deployAt hcur hmem k).2 ⟨n, rfl⟩

/-- A delivery that returns an error lost a call, and all it selects have the
value only if they had it. -/
theorem envVar_error {f : FeatureFlag} {delivery : EnvVarDelivery}
    {selector : GoMap String → Bool} {value err : String} {s s' : Cluster}
    {tr : List KubeEvent}
    (hsel : Apimachinery.labelSelectorAsSelector delivery.selector =
      .ok selector)
    (h : Completes KubeStep (deliverViaEnvVar f delivery value) s tr
      (.error err) s') :
    let selects : Deployment → Bool := fun d =>
      d.metadata.ns = f.metadata.ns ∧ selector d.metadata.labels
    (∃ e ∈ tr, Lost e) ∧
    s' = { s with deployments := s'.deployments } ∧
    (AllHave selects (envVarName f delivery) value s' ↔
      AllHave selects (envVarName f delivery) value s) := by
  intro selects
  refine ⟨?_, ?_⟩
  · by_contra hlost
    rw [not_exists] at hlost
    have hclean := completes_clean h fun e he hl => hlost e ⟨he, hl⟩
    rcases envVar_clean hclean with ⟨n, hn⟩ | ⟨⟨err', herr⟩, _⟩
    · cases hn
    · rw [hsel] at herr
      cases herr
  · cases envVar_cases id h with
    | unselected | unlisted => exact ⟨rfl, Iff.rfl⟩
    | looped hsel' hlist hloop =>
        obtain rfl := Except.ok.inj (hsel.symm.trans hsel')
        obtain ⟨_, hnodup, hcur, hmem⟩ := kubeStep_listDeployments hlist
        obtain ⟨d, hd, hget, hnot⟩ :=
          updateDeployments_error hcur hnodup hloop
        have hselects : selects d = true :=
          decide_eq_true ((hmem d).mp hd).2
        refine ⟨(updateDeployments_ends hcur hnodup hloop).rest,
          iff_of_false (fun hall => ?_) fun hall => ?_⟩
        · exact hnot (hall d (Table.mem_of_get? hget) hselects)
        · exact hnot (hall d ((hmem d).mp hd).1 hselects)

end

end Vexil.Operator
