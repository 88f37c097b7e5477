import Vexil.Operator.Desired
import Vexil.Operator.Ways

/-!
# What one reconcile does to a cluster

How far a `Reconcile` gets towards what its flag asks for. An attempt in which
calls fail leaves every object either as it was or as desired, because the loop
over the Deployments stops after some prefix and each object is written at most
once. An attempt in which no call fails leaves all of them as desired. In both
the flag's own declaration is not touched: the only thing written there is the
status. `reconcile_reach` says this, and `reconcile_silent` that there is
nothing left to write once everything is as desired.
-/

namespace Vexil.Operator

open Vexil.Lib Vexil.Kube

/-! ## The loop over the Deployments

Induction over the list, at any state in which each Deployment still to come is
the stored one. That holds at the start because the list was just read, and it
survives a round because a round writes one Deployment and the keys of a list
are distinct. -/

/-- The Deployment under `k` was made what the injection asks for, if it is the
one `d` was read from. -/
structure Injects (flagName envName value : String) (d : Deployment)
    (s s' : Cluster) : Prop where
  rest : s' = { s with deployments := s'.deployments }
  other : ∀ k, k ≠ d.metadata.objectKey →
    s'.deployments.get? k = s.deployments.get? k
  done : (s'.deployments.get? d.metadata.objectKey).map Deployment.content =
    some (injected flagName envName value d).content

theorem injects_of_update {flagName envName value : String} {d d' : Deployment}
    {s s' : Cluster} (hd : s.deployments.get? d.metadata.objectKey = some d)
    (h : KubeStep s ⟨.updateDeployment (injected flagName envName value d),
      .ok d'⟩ s') : Injects flagName envName value d s s' := by
  obtain ⟨old, hold, _, hs⟩ := kubeStep_updateDeployment h
  have hkey : (injected flagName envName value d).metadata.objectKey =
      d.metadata.objectKey := by rw [metadata_injected]
  rw [hkey, hd] at hold
  obtain rfl := Option.some.inj hold
  rcases hs with ⟨hsame, rfl⟩ | rfl
  · exact ⟨rfl, fun _ _ => rfl, by rw [hd, hsame]; rfl⟩
  · refine ⟨rfl, fun k hk => ?_, ?_⟩
    · have hne : k ≠ Versioned.key (injected flagName envName value d) := by
        intro h
        exact hk (h.trans hkey)
      exact (VTable.get?_write _ _ k).trans (if_neg hne)
    · have hself := VTable.get?_write_self s.deployments
        (injected flagName envName value d)
      rw [show Versioned.key (injected flagName envName value d) =
        d.metadata.objectKey from hkey] at hself
      rw [hself]
      rfl

/-- What the loop leaves behind. `done` is its result when it ran to the end. -/
structure LoopEnds (flagName envName value : String) (ds : List Deployment)
    (count : Nat) (s : Cluster) (result : Except String Nat) (s' : Cluster) :
    Prop where
  rest : s' = { s with deployments := s'.deployments }
  other : ∀ k, k ∉ ds.map (·.metadata.objectKey) →
    s'.deployments.get? k = s.deployments.get? k
  each : ∀ d ∈ ds, s'.deployments.get? d.metadata.objectKey = some d ∨
    (s'.deployments.get? d.metadata.objectKey).map Deployment.content =
      some (injected flagName envName value d).content
  done : ∀ n, result = .ok n → n = count + ds.length ∧ ∀ d ∈ ds,
    (s'.deployments.get? d.metadata.objectKey).map Deployment.content =
      some (injected flagName envName value d).content

theorem LoopEnds.cons {flagName envName value : String} {d : Deployment}
    {ds : List Deployment} {count : Nat} {s m s' : Cluster}
    {result : Except String Nat}
    (hd : d.metadata.objectKey ∉ ds.map (·.metadata.objectKey))
    (h₁ : Injects flagName envName value d s m)
    (h₂ : LoopEnds flagName envName value ds (count + 1) m result s') :
    LoopEnds flagName envName value (d :: ds) count s result s' := by
  have hdone : (s'.deployments.get? d.metadata.objectKey).map
      Deployment.content = some (injected flagName envName value d).content := by
    rw [h₂.other _ hd]
    exact h₁.done
  refine ⟨?_, ?_, ?_, ?_⟩
  · rw [h₂.rest, h₁.rest]
  · intro k hk
    rw [List.map_cons, List.mem_cons, not_or] at hk
    rw [h₂.other k hk.2, h₁.other k hk.1]
  · intro x hx
    rcases List.mem_cons.mp hx with rfl | hx
    · exact .inr hdone
    · exact h₂.each x hx
  · intro n hn
    obtain ⟨hcount, hall⟩ := h₂.done n hn
    refine ⟨by rw [List.length_cons]; omega, ?_⟩
    exact List.forall_mem_cons.mpr ⟨hdone, hall⟩

theorem updateDeployments_ends {flagName envName value : String}
    {ds : List Deployment} {count : Nat} {s s' : Cluster}
    {tr : List KubeEvent} {result : Except String Nat}
    (hcur : ∀ d ∈ ds, s.deployments.get? d.metadata.objectKey = some d)
    (hnodup : (ds.map (·.metadata.objectKey)).Nodup)
    (h : Completes KubeStep (updateDeployments flagName envName value ds count)
      s tr result s') :
    LoopEnds flagName envName value ds count s result s' := by
  induction ds generalizing s tr count with
  | nil =>
      obtain ⟨_, rfl, rfl⟩ := completes_ret.mp h
      refine ⟨rfl, fun _ _ => rfl, by simp, fun n hn => ?_⟩
      cases hn
      exact ⟨by simp, by simp⟩
  | cons d ds ih =>
      rw [List.map_cons, List.nodup_cons] at hnodup
      obtain ⟨hd, hrest⟩ := List.forall_mem_cons.mp hcur
      -- a round that ends in `Injects` keeps what the rest of the loop needs
      have hnext : ∀ m, Injects flagName envName value d s m →
          ∀ x ∈ ds, m.deployments.get? x.metadata.objectKey = some x := by
        intro m hm x hx
        rw [hm.other, hrest x hx]
        intro heq
        exact hnodup.1 (heq ▸ List.mem_map_of_mem hx)
      rw [updateDeployments] at h
      split at h
      · obtain ⟨r, tr', m, rfl, hstep, h⟩ := completes_call.mp h
        cases r with
        | error err =>
            have hm := hstep.of_error
            obtain ⟨_, rfl, rfl⟩ := completes_ret.mp h
            subst hm
            refine ⟨rfl, fun _ _ => rfl, fun x hx => .inl ?_, fun n hn => ?_⟩
            · exact hcur x hx
            · cases hn
        | ok d' =>
            have hinj := injects_of_update hd hstep
            exact (ih (hnext m hinj) hnodup.2 h).cons hnodup.1 hinj
      · next hu =>
          have hsame := injectDeployment_not_updated (Bool.not_eq_true _ ▸ hu)
          have hinj : Injects flagName envName value d s s :=
            ⟨rfl, fun _ _ => rfl, by rw [hd, hsame]; rfl⟩
          exact (ih (hnext s hinj) hnodup.2 h).cons hnodup.1 hinj

theorem clean_updateDeployment {s s' : Cluster} {d old : Deployment}
    {r : KubeCall.Reply (.updateDeployment d)}
    (hold : s.deployments.get? d.metadata.objectKey = some old)
    (hv : d.metadata.resourceVersion = old.metadata.resourceVersion)
    (h : CleanStep s ⟨.updateDeployment d, r⟩ s') : ∃ d', r = .ok d' := by
  obtain ⟨b, t', hu⟩ : ∃ b t',
      s.deployments.update mergeWhole d = (.ok b, t') :=
    VTable.update_of_current hold hv
  have hr : written (s.deployments.update mergeWhole d).1 = r :=
    congrArg Prod.fst h
  rw [hu] at hr
  exact ⟨b, hr.symm⟩

/-- When no call fails the loop runs to its end. -/
theorem updateDeployments_clean {flagName envName value : String}
    {ds : List Deployment} {count : Nat} {s s' : Cluster}
    {tr : List KubeEvent} {result : Except String Nat}
    (hcur : ∀ d ∈ ds, s.deployments.get? d.metadata.objectKey = some d)
    (hnodup : (ds.map (·.metadata.objectKey)).Nodup)
    (h : Completes CleanStep (updateDeployments flagName envName value ds count)
      s tr result s') : ∃ n, result = .ok n := by
  induction ds generalizing s tr count with
  | nil =>
      obtain ⟨_, rfl, _⟩ := completes_ret.mp h
      exact ⟨count, rfl⟩
  | cons d ds ih =>
      rw [List.map_cons, List.nodup_cons] at hnodup
      obtain ⟨hd, hcur⟩ := List.forall_mem_cons.mp hcur
      rw [updateDeployments] at h
      split at h
      · obtain ⟨r, tr', m, rfl, hstep, h⟩ := completes_call.mp h
        have hmeta := metadata_injected flagName envName value d
        have hold : s.deployments.get?
            (injected flagName envName value d).metadata.objectKey = some d := by
          rw [hmeta]
          exact hd
        obtain ⟨d', rfl⟩ :=
          clean_updateDeployment hold (by rw [hmeta]) hstep
        have hinj := injects_of_update hd hstep.kubeStep
        refine ih (fun x hx => ?_) hnodup.2 h
        rw [hinj.other, hcur x hx]
        intro heq
        exact hnodup.1 (heq ▸ List.mem_map_of_mem hx)
      · exact ih hcur hnodup.2 h

/-- Deployments that already carry the value are not written. -/
theorem updateDeployments_silent {flagName envName value : String}
    {T : Cluster → KubeEvent → Cluster → Prop} {ds : List Deployment}
    {count : Nat} {s s' : Cluster} {tr : List KubeEvent}
    {result : Except String Nat} (hhas : ∀ d ∈ ds, HasEnv envName value d)
    (h : Completes T (updateDeployments flagName envName value ds count)
      s tr result s') : tr = [] ∧ s' = s := by
  induction ds generalizing count with
  | nil =>
      obtain ⟨rfl, _, rfl⟩ := completes_ret.mp h
      exact ⟨rfl, rfl⟩
  | cons d ds ih =>
      obtain ⟨hd, hhas⟩ := List.forall_mem_cons.mp hhas
      rw [updateDeployments, injectDeployment_of_hasEnv hd] at h
      exact ih hhas h

/-! ## The delivery through env variables -/

/-- The injection into the Deployments of a selection. -/
def injectedIf (selects : Deployment → Bool) (flagName envName value : String)
    (d : Deployment) : Deployment :=
  if selects d then injected flagName envName value d else d

/-- The loop over a list that was just read, seen from every object: it leaves
a Deployment or injects into it, and if it runs to its end it injects into all
that were selected. -/
theorem LoopEnds.deployAt {flagName envName value ns : String}
    {selector : GoMap String → Bool} {ds : List Deployment} {count : Nat}
    {s s' : Cluster} {result : Except String Nat}
    (hcur : ∀ d ∈ ds, s.deployments.get? d.metadata.objectKey = some d)
    (hmem : ∀ d, d ∈ ds ↔ d ∈ s.deployments.rows.items ∧
      d.metadata.ns = ns ∧ selector d.metadata.labels)
    (h : LoopEnds flagName envName value ds count s result s') :
    let inject := injectedIf
      (fun d => d.metadata.ns = ns ∧ selector d.metadata.labels)
      flagName envName value
    ∀ k, (Kube.deployAt s' k = Kube.deployAt s k ∨
        Kube.deployAt s' k = (Kube.deployAt s k).map inject) ∧
      ((∃ n, result = .ok n) →
        Kube.deployAt s' k = (Kube.deployAt s k).map inject) := by
  intro inject k
  by_cases hk : k ∈ ds.map (·.metadata.objectKey)
  · obtain ⟨d, hd, rfl⟩ := List.mem_map.mp hk
    have hsel := ((hmem d).mp hd).2
    have hin : (Kube.deployAt s d.metadata.objectKey).map inject =
        some (injected flagName envName value d).content := by
      rw [Kube.deployAt, hcur d hd, content_injected]
      exact congrArg some (if_pos (decide_eq_true hsel))
    refine ⟨?_, ?_⟩
    · rcases h.each d hd with hsame | hdone
      · refine .inl ?_
        rw [Kube.deployAt, Kube.deployAt, hsame, hcur d hd]
      · exact .inr (hdone.trans hin.symm)
    · rintro ⟨n, rfl⟩
      exact ((h.done n rfl).2 d hd).trans hin.symm
  · -- a Deployment that was not listed is not selected, or is not there
    have hsame : Kube.deployAt s' k = Kube.deployAt s k := by
      rw [Kube.deployAt, h.other k hk]
      rfl
    have hout : Kube.deployAt s k = (Kube.deployAt s k).map inject := by
      unfold Kube.deployAt
      cases hd : s.deployments.get? k with
      | none => rfl
      | some d =>
          have hnot : ¬ (d.metadata.ns = ns ∧ selector d.metadata.labels) := by
            intro hd'
            refine hk (List.mem_map.mpr ⟨d, ?_, VTable.key_of_get? hd⟩)
            exact (hmem d).mpr ⟨Table.mem_of_get? hd, hd'⟩
          have hif : inject d.content = d.content :=
            if_neg fun hd' => hnot (of_decide_eq_true hd')
          exact congrArg some hif.symm
    exact ⟨.inl hsame, fun _ => hsame.trans hout⟩

section
variable [Apimachinery]

/-- Each Deployment was left as it was or made as the flag asks for, and all of
them were made so if `complete`. -/
structure DeploymentsReach (f : FeatureFlag) (complete : Prop)
    (s s' : Cluster) : Prop where
  rest : s' = { s with deployments := s'.deployments }
  each : ∀ k, deployAt s' k = deployAt s k ∨
    deployAt s' k = (deployAt s k).map (desiredDeployment f)
  all : complete → ∀ k,
    deployAt s' k = (deployAt s k).map (desiredDeployment f)

theorem DeploymentsReach.refl {f : FeatureFlag} {complete : Prop} {s : Cluster}
    (h : complete → ∀ k,
      deployAt s k = (deployAt s k).map (desiredDeployment f)) :
    DeploymentsReach f complete s s := ⟨rfl, fun _ => .inl rfl, h⟩

theorem envVar_reach {f : FeatureFlag} {delivery : EnvVarDelivery}
    {s s' : Cluster} {tr : List KubeEvent} {result : Except String Nat}
    (hdis : f.spec.disabled = false)
    (hdel : f.spec.delivery.bind DeliverySpec.envVar = some delivery)
    (h : Completes KubeStep (deliverViaEnvVar f delivery f.spec.defaultValue)
      s tr result s') :
    DeploymentsReach f (∃ n, result = .ok n) s s' := by
  cases envVar_cases id h with
  | unselected | unlisted => exact .refl (by simp)
  | @looped selector ds _ _ _ hsel hlist hloop =>
      have ht : envTarget f = some ⟨envVarName f delivery, fun d =>
          d.metadata.ns = f.metadata.ns ∧ selector d.metadata.labels⟩ := by
        simp [envTarget, envDelivery, hdis, hdel, hsel]
      obtain ⟨_, hnodup, hcur, hmem⟩ := kubeStep_listDeployments hlist
      have hends := updateDeployments_ends hcur hnodup hloop
      have hasked : desiredDeployment f = injectedIf
          (fun d => d.metadata.ns = f.metadata.ns ∧
            selector d.metadata.labels)
          f.metadata.name (envVarName f delivery) f.spec.defaultValue := by
        funext d
        simp only [desiredDeployment, ht, injectedIf]
      have hall := hends.deployAt hcur hmem
      rw [← hasked] at hall
      exact ⟨hends.rest, fun k => (hall k).1, fun hok k => (hall k).2 hok⟩

/-- A delivery that succeeded had a selector it could convert. -/
theorem envFails_of_ok {T : Cluster → KubeEvent → Cluster → Prop}
    {f : FeatureFlag} {delivery : EnvVarDelivery} {value : String} {n : Nat}
    {s s' : Cluster} {tr : List KubeEvent}
    (hdel : f.spec.delivery.bind DeliverySpec.envVar = some delivery)
    (h : Completes T (deliverViaEnvVar f delivery value) s tr (.ok n) s') :
    envFails f = false := by
  unfold deliverViaEnvVar at h
  split at h
  · cases (completes_ret.mp h).2.1
  · next selector hsel => simp [envFails, hdel, hsel]

/-- When no call fails, only a selector that cannot be converted stops it. -/
theorem envVar_clean {f : FeatureFlag} {delivery : EnvVarDelivery}
    {value : String} {s s' : Cluster} {tr : List KubeEvent}
    {result : Except String Nat}
    (h : Completes CleanStep (deliverViaEnvVar f delivery value) s tr result s') :
    (∃ n, result = .ok n) ∨
      (∃ err, Apimachinery.labelSelectorAsSelector delivery.selector =
        .error err) ∧ s' = s := by
  cases envVar_cases CleanStep.kubeStep h with
  | unselected hsel => exact .inr ⟨⟨_, hsel⟩, rfl⟩
  | unlisted _ hlist => cases congrArg Prod.fst hlist
  | looped _ hlist hloop =>
      obtain ⟨_, hnodup, hcur, _⟩ := kubeStep_listDeployments hlist.kubeStep
      exact .inl (updateDeployments_clean hcur hnodup hloop)

/-! ## The delivery through a ConfigMap -/

structure ConfigMapsReach (f : FeatureFlag) (complete : Prop)
    (s s' : Cluster) : Prop where
  rest : s' = { s with configMaps := s'.configMaps }
  each : ∀ k, configMapAt s' k = configMapAt s k ∨
    configMapAt s' k = desiredConfigMap f k (configMapAt s k)
  all : complete → ∀ k,
    configMapAt s' k = desiredConfigMap f k (configMapAt s k)

theorem ConfigMapsReach.refl {f : FeatureFlag} {complete : Prop} {s : Cluster}
    (h : complete → ∀ k,
      configMapAt s k = desiredConfigMap f k (configMapAt s k)) :
    ConfigMapsReach f complete s s := ⟨rfl, fun _ => .inl rfl, h⟩

/-- The ConfigMap of the delivery was written and is as desired. -/
theorem ConfigMapsReach.of_write {f : FeatureFlag}
    {delivery : ConfigMapDelivery} (complete : Prop) (s : Cluster)
    (ht : configMapTarget f = some delivery)
    (hkey : (deliveredConfigMap f delivery
        (s.configMaps.get? ⟨f.metadata.ns, delivery.configMapName⟩)
      ).metadata.objectKey = ⟨f.metadata.ns, delivery.configMapName⟩) :
    ConfigMapsReach f complete s { s with
      configMaps := s.configMaps.write (deliveredConfigMap f delivery
        (s.configMaps.get? ⟨f.metadata.ns, delivery.configMapName⟩)) } := by
  have hall : ∀ k, configMapAt { s with
      configMaps := s.configMaps.write (deliveredConfigMap f delivery
        (s.configMaps.get? ⟨f.metadata.ns, delivery.configMapName⟩)) } k =
      desiredConfigMap f k (configMapAt s k) := by
    intro k
    rw [desiredConfigMap_of_some ht, configMapAt, configMapAt]
    have hget := VTable.get?_write s.configMaps (deliveredConfigMap f delivery
      (s.configMaps.get? ⟨f.metadata.ns, delivery.configMapName⟩)) k
    rw [show Versioned.key (deliveredConfigMap f delivery
      (s.configMaps.get? ⟨f.metadata.ns, delivery.configMapName⟩)) =
        ⟨f.metadata.ns, delivery.configMapName⟩ from hkey] at hget
    rw [hget]
    split
    · next hk =>
        subst hk
        rw [← content_deliveredConfigMap]
        rfl
    · rfl
  exact ⟨rfl, fun k => .inr (hall k), fun _ => hall⟩

theorem ConfigMapsReach.created {f : FeatureFlag} {delivery : ConfigMapDelivery}
    {complete : Prop} {s s' : Cluster} {cm : ConfigMap}
    (ht : configMapTarget f = some delivery)
    (hnone : s.configMaps.get? ⟨f.metadata.ns, delivery.configMapName⟩ = none)
    (h : KubeStep s
      ⟨.createConfigMap (newConfigMap f delivery f.spec.defaultValue), .ok cm⟩
      s') : ConfigMapsReach f complete s s' := by
  obtain ⟨_, rfl⟩ := kubeStep_createConfigMap h
  have hw := ConfigMapsReach.of_write complete s ht (by rw [hnone]; rfl)
  rw [hnone] at hw
  exact hw

/-- An update of a ConfigMap that does not have the value. -/
theorem ConfigMapsReach.updated {f : FeatureFlag} {delivery : ConfigMapDelivery}
    {complete : Prop} {s s' : Cluster} {cm cm' : ConfigMap}
    (ht : configMapTarget f = some delivery)
    (hcm : s.configMaps.get? ⟨f.metadata.ns, delivery.configMapName⟩ = some cm)
    (hne : (orEmpty cm.data).index delivery.key ≠ f.spec.defaultValue)
    (h : KubeStep s ⟨.updateConfigMap { cm with
      data := some ((orEmpty cm.data).insert delivery.key
        f.spec.defaultValue) }, .ok cm'⟩ s') :
    ConfigMapsReach f complete s s' := by
  have hkey : cm.metadata.objectKey =
      ⟨f.metadata.ns, delivery.configMapName⟩ := VTable.key_of_get? hcm
  have hdel : deliveredConfigMap f delivery (some cm) =
      { cm with data := some ((orEmpty cm.data).insert delivery.key
        f.spec.defaultValue) } := by
    simp only [deliveredConfigMap, if_pos hne]
  obtain ⟨old, hold, _, hs⟩ := kubeStep_updateConfigMap h
  have hold' : s.configMaps.get? cm.metadata.objectKey = some old := hold
  rw [hkey, hcm] at hold'
  obtain rfl := Option.some.inj hold'
  have hidx := deliveredConfigMap_index f delivery (some cm)
  rcases hs with ⟨hsame, _⟩ | rfl
  · rw [hdel, hsame] at hidx
    exact absurd hidx hne
  · have hw := ConfigMapsReach.of_write complete s ht
      (by rw [hcm, hdel]; exact hkey)
    rw [hcm, hdel] at hw
    exact hw

/-- A ConfigMap that has the value is as desired. -/
theorem ConfigMapsReach.unneeded {f : FeatureFlag}
    {delivery : ConfigMapDelivery} {complete : Prop} {s : Cluster}
    {cm : ConfigMap} (ht : configMapTarget f = some delivery)
    (hcm : s.configMaps.get? ⟨f.metadata.ns, delivery.configMapName⟩ = some cm)
    (heq : (orEmpty cm.data).index delivery.key = f.spec.defaultValue) :
    ConfigMapsReach f complete s s := by
  refine .refl fun _ k => ?_
  rw [desiredConfigMap_of_some ht]
  split
  · next hk =>
      subst hk
      have hidx : (orEmpty (ConfigMap.content cm).data).index delivery.key =
          f.spec.defaultValue := heq
      rw [configMapAt, hcm, Option.map_some, deliveredConfigMap_of_index hidx]
  · rfl

theorem configMap_reach {f : FeatureFlag} {delivery : ConfigMapDelivery}
    {s s' : Cluster} {tr : List KubeEvent} {result : Except String Unit}
    (ht : configMapTarget f = some delivery)
    (h : Completes KubeStep (deliverViaConfigMap f delivery f.spec.defaultValue)
      s tr result s') :
    ConfigMapsReach f (result = .ok ()) s s' := by
  cases configMap_cases id h with
  | unread | uncreated | unwritten => exact .refl (by simp)
  | created _ hnone hcreate => exact .created ht hnone hcreate
  | updated hcm hne hupdate => exact .updated ht hcm hne hupdate
  | unneeded hcm heq => exact .unneeded ht hcm heq

omit [Apimachinery] in
theorem configMap_clean {f : FeatureFlag} {delivery : ConfigMapDelivery}
    {value : String} {s s' : Cluster} {tr : List KubeEvent}
    {result : Except String Unit}
    (h : Completes CleanStep (deliverViaConfigMap f delivery value)
      s tr result s') : result = .ok () := by
  cases configMap_cases CleanStep.kubeStep h with
  | created | updated | unneeded => rfl
  | unread hget hnf =>
      have hfound : found (s.configMaps.get?
        ⟨f.metadata.ns, delivery.configMapName⟩) = _ := congrArg Prod.fst hget
      cases hcm : s.configMaps.get?
          ⟨f.metadata.ns, delivery.configMapName⟩ with
      | none =>
          rw [hcm] at hfound
          cases hfound
          cases hnf
      | some cm =>
          rw [hcm] at hfound
          cases hfound
  | uncreated hnone hcreate =>
      have hw : written (s.configMaps.create
          (newConfigMap f delivery value)).1 = _ := congrArg Prod.fst hcreate
      have hcreated : (s.configMaps.create (newConfigMap f delivery value)).1 =
          .ok (s.configMaps.stamp (newConfigMap f delivery value)) := by
        have hnone' : s.configMaps.get?
            (Versioned.key (newConfigMap f delivery value)) = none := hnone
        simp only [VTable.create, hnone']
      rw [hcreated] at hw
      cases hw
  | @unwritten cm _ _ hcm _ hupdate =>
      have hkey : cm.metadata.objectKey =
          ⟨f.metadata.ns, delivery.configMapName⟩ := VTable.key_of_get? hcm
      rw [← hkey] at hcm
      obtain ⟨b, t, hu⟩ : ∃ b t, s.configMaps.update mergeWhole
          { cm with data := some ((orEmpty cm.data).insert delivery.key
            value) } = (.ok b, t) := VTable.update_of_current hcm rfl
      have hw : written (s.configMaps.update mergeWhole
          { cm with data := some ((orEmpty cm.data).insert delivery.key
            value) }).1 = _ := congrArg Prod.fst hupdate
      rw [hu] at hw
      cases hw

/-! ## The whole delivery -/

/-- How far an attempt got: each object is as it was or as desired, and all of
them are as desired if `complete`. -/
structure Reach (f : FeatureFlag) (complete : Prop) (s s' : Cluster) :
    Prop where
  deployments : ∀ k, deployAt s' k = deployAt s k ∨
    deployAt s' k = (deployAt s k).map (desiredDeployment f)
  configMaps : ∀ k, configMapAt s' k = configMapAt s k ∨
    configMapAt s' k = desiredConfigMap f k (configMapAt s k)
  allDeployments : complete → ∀ k,
    deployAt s' k = (deployAt s k).map (desiredDeployment f)
  allConfigMaps : complete → ∀ k,
    configMapAt s' k = desiredConfigMap f k (configMapAt s k)

/-- Flags with one declaration ask for the same. -/
theorem Reach.congr {f g : FeatureFlag} {complete : Prop} {s s' : Cluster}
    (hfg : f.declared = g.declared) (h : Reach f complete s s') :
    Reach g complete s s' := by
  have hd : desiredDeployment f = desiredDeployment g := by
    rw [← desiredDeployment_declared f, hfg, desiredDeployment_declared]
  have hc : desiredConfigMap f = desiredConfigMap g := by
    rw [← desiredConfigMap_declared f, hfg, desiredConfigMap_declared]
  obtain ⟨h₁, h₂, h₃, h₄⟩ := h
  rw [hd] at h₁ h₃
  rw [hc] at h₂ h₄
  exact ⟨h₁, h₂, h₃, h₄⟩

/-- Nothing is asked for. -/
theorem Reach.of_nothing {f : FeatureFlag} {complete : Prop} {s s' : Cluster}
    (henv : envTarget f = none) (hcm : configMapTarget f = none)
    (hd : s'.deployments = s.deployments) (hc : s'.configMaps = s.configMaps) :
    Reach f complete s s' := by
  have hd' : ∀ k, deployAt s' k = deployAt s k := fun k => by
    rw [deployAt, deployAt, hd]
  have hc' : ∀ k, configMapAt s' k = configMapAt s k := fun k => by
    rw [configMapAt, configMapAt, hc]
  refine ⟨fun k => .inl (hd' k), fun k => .inl (hc' k), fun _ k => ?_,
    fun _ k => ?_⟩
  · rw [hd', funext (desiredDeployment_of_none henv), Option.map_id']
  · rw [hc', desiredConfigMap_of_none hcm]

/-- First the Deployments, then the ConfigMap. -/
theorem DeploymentsReach.reach {f : FeatureFlag} {p q complete : Prop}
    {s m s' : Cluster} (hd : DeploymentsReach f p s m)
    (hc : ConfigMapsReach f q m s') (hp : complete → p) (hq : complete → q) :
    Reach f complete s s' ∧ s' = { s with
      deployments := s'.deployments, configMaps := s'.configMaps } := by
  have hdeploy : ∀ k, deployAt s' k = deployAt m k := fun k => by
    rw [hc.rest]
    rfl
  have hconf : ∀ k, configMapAt m k = configMapAt s k := fun k => by
    rw [hd.rest]
    rfl
  refine ⟨⟨fun k => ?_, fun k => ?_, fun h k => ?_, fun h k => ?_⟩, ?_⟩
  · rw [hdeploy]
    exact hd.each k
  · rw [← hconf]
    exact hc.each k
  · rw [hdeploy]
    exact hd.all (hp h) k
  · rw [← hconf]
    exact hc.all (hq h) k
  · have hrest := hd.rest
    rw [hc.rest]
    rw [hrest]

theorem envHalf_reach {f : FeatureFlag} {s s' : Cluster} {tr : List KubeEvent}
    {r : Except String Nat} (hdis : f.spec.disabled = false)
    (h : EnvHalfRun KubeStep f f.spec.defaultValue s tr r s') :
    DeploymentsReach f (∃ n, r = .ok n) s s' := by
  cases h with
  | absent hno =>
      refine .refl fun _ k => ?_
      rw [funext (desiredDeployment_of_none (f := f) ?_), Option.map_id']
      simp [envTarget, envDelivery, hno]
  | asked hdel hrun => exact envVar_reach hdis hdel hrun

theorem envHalf_ok {T : Cluster → KubeEvent → Cluster → Prop}
    {f : FeatureFlag} {value : String} {s s' : Cluster} {tr : List KubeEvent}
    {n : Nat} (h : EnvHalfRun T f value s tr (.ok n) s') :
    envFails f = false := by
  cases h with
  | absent hno => simp [envFails, hno]
  | asked hdel hrun => exact envFails_of_ok hdel hrun

theorem configMapHalf_reach {f : FeatureFlag} {targeted : Nat}
    {s s' : Cluster} {tr : List KubeEvent} {result : Except String Nat}
    (ht : configMapTarget f = f.spec.delivery.bind DeliverySpec.configMap)
    (h : ConfigMapHalfRun KubeStep f f.spec.defaultValue targeted s tr result
      s') : ConfigMapsReach f (∃ n, result = .ok n) s s' := by
  cases h with
  | absent hno =>
      exact .refl fun _ k =>
        (desiredConfigMap_of_none (ht.trans hno) k _).symm
  | @asked _ _ r _ hdel hrun =>
      have hreach := configMap_reach (ht.trans hdel) hrun
      refine ⟨hreach.rest, hreach.each, ?_⟩
      rintro ⟨n, hn⟩
      refine hreach.all ?_
      cases r with
      | error err => cases hn
      | ok u => rfl

theorem deliver_reach {f : FeatureFlag} {s s' : Cluster} {tr : List KubeEvent}
    {result : Except String Nat} (hdis : f.spec.disabled = false)
    (h : Completes KubeStep (deliver f f.spec.defaultValue) s tr result s') :
    Reach f (∃ n, result = .ok n) s s' ∧ s' = { s with
      deployments := s'.deployments, configMaps := s'.configMaps } := by
  cases deliver_cases h with
  | envFailed henv =>
      have hc : ConfigMapsReach f False s' s' := .refl (by simp)
      exact (envHalf_reach hdis henv).reach hc (by simp) (by simp)
  | reached henv hcm =>
      have ht : configMapTarget f =
          f.spec.delivery.bind DeliverySpec.configMap := by
        simp [configMapTarget, hdis, envHalf_ok henv]
      exact (envHalf_reach hdis henv).reach (configMapHalf_reach ht hcm)
        (fun _ => ⟨_, rfl⟩) fun h => h

/-- With no failing call the flag gets all it asks for; when its selector
cannot be converted that is nothing. -/
theorem deliver_clean {f : FeatureFlag} {s s' : Cluster} {tr : List KubeEvent}
    {result : Except String Nat} (hdis : f.spec.disabled = false)
    (h : Completes CleanStep (deliver f f.spec.defaultValue) s tr result s') :
    Reach f True s s' := by
  have hkube := deliver_reach hdis (h.mono fun _ _ _ => CleanStep.kubeStep)
  by_cases hok : ∃ n, result = .ok n
  · exact ⟨hkube.1.deployments, hkube.1.configMaps,
      fun _ => hkube.1.allDeployments hok, fun _ => hkube.1.allConfigMaps hok⟩
  · cases deliver_cases h with
    | reached _ hcm =>
        refine absurd ?_ hok
        cases hcm with
        | absent => exact ⟨_, rfl⟩
        | asked _ hrun =>
            obtain rfl := configMap_clean hrun
            exact ⟨_, rfl⟩
    | envFailed henv =>
        cases henv with
        | asked hdel hrun =>
            obtain ⟨n, hn⟩ | ⟨⟨why, hsel⟩, rfl⟩ := envVar_clean hrun
            · cases hn
            · refine .of_nothing ?_ ?_ rfl rfl
              · simp [envTarget, envDelivery, hdis, hdel, hsel]
              · simp [configMapTarget, envFails, hdel, hsel]

/-! ## The whole reconcile -/

omit [Apimachinery] in
/-- The status write changes no declaration and no other flag. -/
theorem updateStatus_flags {now : Nat} {flag : FeatureFlag} {phase : FlagPhase}
    {value : String} {count : Nat} {s s' : Cluster} {tr : List KubeEvent}
    {result : Except String Result}
    (h : Completes KubeStep (updateStatus now flag phase value count)
      s tr result s') :
    s' = { s with flags := s'.flags } ∧ (∀ k, flagAt s' k = flagAt s k) ∧
      ∀ k, k ≠ flag.metadata.objectKey → s'.flags.get? k = s.flags.get? k := by
  obtain ⟨r, _, hstep, _⟩ := updateStatus_call h
  cases r with
  | error err =>
      have hm := hstep.of_error
      subst hm
      exact ⟨rfl, fun _ => rfl, fun _ _ => rfl⟩
  | ok f' =>
      obtain ⟨old, hold, _, hs⟩ := kubeStep_updateFlagStatus hstep
      rcases hs with ⟨_, hm⟩ | hm
      · subst hm
        exact ⟨rfl, fun _ => rfl, fun _ _ => rfl⟩
      · subst hm
        have hget := VTable.get?_write s.flags (mergeFlagStatus old
          { flag with status := newStatus now flag phase value count })
        have hold' : s.flags.get? flag.metadata.objectKey = some old := hold
        have hkey : Versioned.key (mergeFlagStatus old
            { flag with status := newStatus now flag phase value count }) =
            flag.metadata.objectKey :=
          (VTable.key_of_get? hold' :
            Versioned.key old = flag.metadata.objectKey)
        refine ⟨rfl, fun k => ?_, fun k hk => ?_⟩
        · rw [flagAt, hget k, hkey]
          split
          · next hk =>
              subst hk
              rw [flagAt, hold']
              rfl
          · rfl
        · rw [hget k, hkey, if_neg hk]

/-- What an attempt on the flag stored under `req` does. -/
structure Reconciles (req : ObjectKey) (f : FeatureFlag) (complete : Prop)
    (s s' : Cluster) : Prop where
  reach : Reach f complete s s'
  declared : ∀ k, flagAt s' k = flagAt s k
  others : ∀ k, k ≠ req → s'.flags.get? k = s.flags.get? k

theorem Reach.reconciles {req : ObjectKey} {f : FeatureFlag} {complete : Prop}
    {now : Nat} {phase : FlagPhase} {value : String} {count : Nat}
    {s m s' : Cluster} {tr : List KubeEvent} {result : Except String Result}
    (hkey : f.metadata.objectKey = req) (hreach : Reach f complete s m)
    (hflags : m.flags = s.flags)
    (h : Completes KubeStep (updateStatus now f phase value count)
      m tr result s') : Reconciles req f complete s s' := by
  obtain ⟨hrest, hdeclared, hothers⟩ := updateStatus_flags h
  have hd : ∀ k, deployAt s' k = deployAt m k := fun k => by rw [hrest]; rfl
  have hc : ∀ k, configMapAt s' k = configMapAt m k := fun k => by
    rw [hrest]
    rfl
  have hf : ∀ k, flagAt m k = flagAt s k := fun k => by
    rw [flagAt, flagAt, hflags]
  refine ⟨⟨?_, ?_, ?_, ?_⟩, fun k => ?_, fun k hk => ?_⟩
  · simpa only [hd] using hreach.deployments
  · simpa only [hc] using hreach.configMaps
  · simpa only [hd] using hreach.allDeployments
  · simpa only [hc] using hreach.allConfigMaps
  · rw [hdeclared, hf]
  · rw [← hflags, ← hothers k (hkey ▸ hk)]

theorem disabled_targets {f : FeatureFlag} (hdis : f.spec.disabled = true) :
    envTarget f = none ∧ configMapTarget f = none := by
  simp [envTarget, configMapTarget, hdis]

/-- The phase a reconcile recorded, if its status write was accepted. -/
def recordedPhase (tr : List KubeEvent) : Option FlagPhase :=
  match tr.getLast? with
  | some ⟨.updateFlagStatus f, .ok _⟩ => some f.status.phase
  | _ => none

omit [Apimachinery] in
theorem recordedPhase_updateStatus {T : Cluster → KubeEvent → Cluster → Prop}
    {now : Nat} {flag : FeatureFlag} {phase p : FlagPhase} {value : String}
    {count : Nat} {s s' : Cluster} {pre tr : List KubeEvent}
    {result : Except String Result}
    (h : Completes T (updateStatus now flag phase value count) s tr result s')
    (hp : recordedPhase (pre ++ tr) = some p) : p = phase := by
  obtain ⟨r, rfl, _, _⟩ := updateStatus_call h
  cases r with
  | error err => simp [recordedPhase] at hp
  | ok f' =>
      simp [recordedPhase, newStatus] at hp
      exact hp.symm

theorem reconcile_reach {now : Nat} {req : ObjectKey} {f : FeatureFlag}
    {s s' : Cluster} {tr : List KubeEvent} {result : Except String Result}
    (hf : s.flags.get? req = some f)
    (h : Completes KubeStep (reconcile now req) s tr result s') :
    Reconciles req f (recordedPhase tr = some .active) s s' := by
  have hkey := VTable.key_of_get? hf
  cases reconcile_cases id h with
  | @unread err =>
      have hfail : recordedPhase [⟨KubeCall.getFlag req, .error err⟩] ≠
          some .active := by
        simp [recordedPhase]
      exact ⟨⟨fun _ => .inl rfl, fun _ => .inl rfl, fun h => absurd h hfail,
        fun h => absurd h hfail⟩, fun _ => rfl, fun _ _ => rfl⟩
  | disabled hg hdis hstatus =>
      obtain rfl := Option.some.inj (hf.symm.trans hg)
      obtain ⟨henv, hcm⟩ := disabled_targets hdis
      exact (Reach.of_nothing henv hcm rfl rfl).reconciles hkey rfl hstatus
  | @failed g _ tr₁ tr₂ _ m _ hg hdis hdeliver hstatus =>
      obtain rfl := Option.some.inj (hf.symm.trans hg)
      obtain ⟨hreach, hrest⟩ := deliver_reach hdis hdeliver
      have hfail : recordedPhase (⟨KubeCall.getFlag req, .ok f⟩ ::
          (tr₁ ++ tr₂)) ≠ some .active := by
        intro hp
        rw [← List.cons_append] at hp
        cases recordedPhase_updateStatus hstatus hp
      have hpartly : Reach f (recordedPhase (⟨KubeCall.getFlag req, .ok f⟩ ::
          (tr₁ ++ tr₂)) = some .active) s m :=
        ⟨hreach.deployments, hreach.configMaps, fun h => absurd h hfail,
          fun h => absurd h hfail⟩
      exact hpartly.reconciles hkey (by rw [hrest]) hstatus
  | @active g targeted tr₁ tr₂ _ m _ hg hdis hdeliver hstatus =>
      obtain rfl := Option.some.inj (hf.symm.trans hg)
      obtain ⟨hreach, hrest⟩ := deliver_reach hdis hdeliver
      have hall : Reach f (recordedPhase (⟨KubeCall.getFlag req, .ok f⟩ ::
          (tr₁ ++ tr₂)) = some .active) s m :=
        ⟨hreach.deployments, hreach.configMaps,
          fun _ => hreach.allDeployments ⟨_, rfl⟩,
          fun _ => hreach.allConfigMaps ⟨_, rfl⟩⟩
      exact hall.reconciles hkey (by rw [hrest]) hstatus

theorem reconcile_clean {now : Nat} {req : ObjectKey} {f : FeatureFlag}
    {s s' : Cluster} {tr : List KubeEvent} {result : Except String Result}
    (hf : s.flags.get? req = some f)
    (h : Completes CleanStep (reconcile now req) s tr result s') :
    Reconciles req f True s s' := by
  have hkey := VTable.key_of_get? hf
  have hkube : ∀ {s e s'}, CleanStep s e s' → KubeStep s e s' :=
    CleanStep.kubeStep
  have hdone : ∀ {tr r m}, f.spec.disabled = false →
      Completes CleanStep (deliver f f.spec.defaultValue) s tr r m →
      Reach f True s m ∧ m.flags = s.flags := by
    intro tr r m hdis hdeliver
    have hrest := (deliver_reach hdis (hdeliver.mono fun _ _ _ => hkube)).2
    exact ⟨deliver_clean hdis hdeliver, by rw [hrest]⟩
  cases reconcile_cases hkube h with
  | unread hget =>
      have hr : found (s.flags.get? req) = _ := congrArg Prod.fst hget
      rw [hf] at hr
      cases hr
  | disabled hg hdis hstatus =>
      obtain rfl := Option.some.inj (hf.symm.trans hg)
      obtain ⟨henv, hcm⟩ := disabled_targets hdis
      exact (Reach.of_nothing henv hcm rfl rfl).reconciles hkey rfl
        (hstatus.mono fun _ _ _ => hkube)
  | failed hg hdis hdeliver hstatus | active hg hdis hdeliver hstatus =>
      obtain rfl := Option.some.inj (hf.symm.trans hg)
      obtain ⟨hreach, hflags⟩ := hdone hdis hdeliver
      exact hreach.reconciles hkey hflags (hstatus.mono fun _ _ _ => hkube)

/-- There is nothing to do for a flag that is gone. -/
theorem reconcile_missing {now : Nat} {req : ObjectKey} {s s' : Cluster}
    {tr : List KubeEvent} {result : Except String Result}
    (hf : s.flags.get? req = none)
    (h : Completes KubeStep (reconcile now req) s tr result s') : s' = s := by
  cases reconcile_cases id h with
  | unread => rfl
  | disabled hg | failed hg | active hg =>
      rw [hf] at hg
      cases hg

/-! ## Nothing left to write -/

/-- Everything is as the flag asks for. -/
structure Settled (f : FeatureFlag) (s : Cluster) : Prop where
  deployments : ∀ k, deployAt s k = (deployAt s k).map (desiredDeployment f)
  configMaps : ∀ k, configMapAt s k = desiredConfigMap f k (configMapAt s k)

theorem Settled.congr {f g : FeatureFlag} {s : Cluster}
    (hfg : f.declared = g.declared) (h : Settled f s) : Settled g s := by
  obtain ⟨hd, hc⟩ := h
  rw [← desiredDeployment_declared, hfg, desiredDeployment_declared] at hd
  rw [← desiredConfigMap_declared, hfg, desiredConfigMap_declared] at hc
  exact ⟨hd, hc⟩

/-- The calls that write a Deployment or a ConfigMap. -/
def isWorkloadWrite : KubeCall → Bool
  | .updateDeployment _ | .createConfigMap _ | .updateConfigMap _ => true
  | _ => false

theorem Settled.hasEnv {f : FeatureFlag} {s : Cluster} (h : Settled f s)
    {t : EnvTarget} (ht : envTarget f = some t) {d : Deployment}
    (hd : s.deployments.get? d.metadata.objectKey = some d)
    (hs : t.selects d = true) : HasEnv t.envName f.spec.defaultValue d := by
  have hfix := h.deployments d.metadata.objectKey
  rw [deployAt, hd, Option.map_some, Option.map_some, Option.some.injEq,
    ← content_desiredDeployment, desiredDeployment_of_selects ht hs,
    content_injected] at hfix
  have hhas : HasEnv t.envName f.spec.defaultValue d.content := by
    rw [hfix]
    exact hasEnv_injected _ _ _ _
  exact hhas

theorem Settled.index {f : FeatureFlag} {s : Cluster} (h : Settled f s)
    {delivery : ConfigMapDelivery} (ht : configMapTarget f = some delivery) :
    ∃ cm, s.configMaps.get? ⟨f.metadata.ns, delivery.configMapName⟩ = some cm ∧
      (orEmpty cm.data).index delivery.key = f.spec.defaultValue := by
  have hfix := h.configMaps ⟨f.metadata.ns, delivery.configMapName⟩
  rw [desiredConfigMap_of_some ht, if_pos rfl, configMapAt] at hfix
  cases hcm : s.configMaps.get? ⟨f.metadata.ns, delivery.configMapName⟩ with
  | none =>
      rw [hcm] at hfix
      cases hfix
  | some cm =>
      rw [hcm, Option.map_some, Option.some.injEq] at hfix
      have hidx := deliveredConfigMap_index f delivery (some cm.content)
      rw [← hfix] at hidx
      exact ⟨cm, rfl, hidx⟩

theorem envVar_silent {f : FeatureFlag} {delivery : EnvVarDelivery}
    {s s' : Cluster} {tr : List KubeEvent} {result : Except String Nat}
    (hset : Settled f s) (hdis : f.spec.disabled = false)
    (hdel : f.spec.delivery.bind DeliverySpec.envVar = some delivery)
    (h : Completes KubeStep (deliverViaEnvVar f delivery f.spec.defaultValue)
      s tr result s') :
    (∀ e ∈ tr, isWorkloadWrite e.call = false) ∧ s' = s := by
  cases envVar_cases id h with
  | unselected => exact ⟨by simp, rfl⟩
  | unlisted => exact ⟨by simp [isWorkloadWrite], rfl⟩
  | @looped selector ds _ _ _ hsel hlist hloop =>
      have ht : envTarget f = some ⟨envVarName f delivery, fun d =>
          d.metadata.ns = f.metadata.ns ∧ selector d.metadata.labels⟩ := by
        simp [envTarget, envDelivery, hdis, hdel, hsel]
      obtain ⟨_, _, hcur, hmem⟩ := kubeStep_listDeployments hlist
      have hhas : ∀ d ∈ ds,
          HasEnv (envVarName f delivery) f.spec.defaultValue d := by
        intro d hd
        obtain ⟨_, hns, hlabels⟩ := (hmem d).mp hd
        exact hset.hasEnv ht (hcur d hd) (by simp [hns, hlabels])
      obtain ⟨rfl, rfl⟩ := updateDeployments_silent hhas hloop
      exact ⟨by simp [isWorkloadWrite], rfl⟩

theorem configMap_silent {f : FeatureFlag} {delivery : ConfigMapDelivery}
    {s s' : Cluster} {tr : List KubeEvent} {result : Except String Unit}
    (hset : Settled f s) (ht : configMapTarget f = some delivery)
    (h : Completes KubeStep (deliverViaConfigMap f delivery f.spec.defaultValue)
      s tr result s') :
    (∀ e ∈ tr, isWorkloadWrite e.call = false) ∧ s' = s := by
  obtain ⟨cm, hcm, hidx⟩ := hset.index ht
  cases configMap_cases id h with
  | unread | unneeded => exact ⟨by simp [isWorkloadWrite], rfl⟩
  | uncreated hnone | created _ hnone =>
      rw [hcm] at hnone
      cases hnone
  | unwritten hcm' hne | updated hcm' hne =>
      rw [hcm] at hcm'
      obtain rfl := Option.some.inj hcm'
      exact absurd hidx hne

theorem deliver_silent {f : FeatureFlag} {s s' : Cluster} {tr : List KubeEvent}
    {result : Except String Nat} (hset : Settled f s)
    (hdis : f.spec.disabled = false)
    (h : Completes KubeStep (deliver f f.spec.defaultValue) s tr result s') :
    (∀ e ∈ tr, isWorkloadWrite e.call = false) ∧ s' = s := by
  have hsilent : ∀ {tr m r}, EnvHalfRun KubeStep f f.spec.defaultValue s tr r
      m → (∀ e ∈ tr, isWorkloadWrite e.call = false) ∧ m = s := by
    intro tr m r henv
    cases henv with
    | absent => exact ⟨by simp, rfl⟩
    | asked hdel hrun => exact envVar_silent hset hdis hdel hrun
  cases deliver_cases h with
  | envFailed henv => exact hsilent henv
  | reached henv hcm =>
      obtain ⟨htr₁, rfl⟩ := hsilent henv
      cases hcm with
      | absent => exact ⟨by simpa using htr₁, rfl⟩
      | asked hdel hrun =>
          obtain ⟨htr₂, rfl⟩ := configMap_silent hset
            (by simp [configMapTarget, hdis, envHalf_ok henv, hdel]) hrun
          exact ⟨List.forall_mem_append.mpr ⟨htr₁, htr₂⟩, rfl⟩

theorem reconcile_silent {now : Nat} {req : ObjectKey} {f : FeatureFlag}
    {s s' : Cluster} {tr : List KubeEvent} {result : Except String Result}
    (hf : s.flags.get? req = some f) (hset : Settled f s)
    (h : Completes KubeStep (reconcile now req) s tr result s') :
    ∀ e ∈ tr, isWorkloadWrite e.call = false := by
  have hstatus : ∀ {phase value count m tr}, Completes KubeStep
      (updateStatus now f phase value count) m tr result s' →
      ∀ e ∈ tr, isWorkloadWrite e.call = false := by
    intro phase value count m tr h
    obtain ⟨r, rfl, _, _⟩ := updateStatus_call h
    simp [isWorkloadWrite]
  cases reconcile_cases id h with
  | unread => simp [isWorkloadWrite]
  | disabled hg _ hrun =>
      obtain rfl := Option.some.inj (hf.symm.trans hg)
      exact List.forall_mem_cons.mpr ⟨rfl, hstatus hrun⟩
  | failed hg hdis hdeliver hrun | active hg hdis hdeliver hrun =>
      obtain rfl := Option.some.inj (hf.symm.trans hg)
      exact List.forall_mem_cons.mpr ⟨rfl, List.forall_mem_append.mpr
        ⟨(deliver_silent hset hdis hdeliver).1, hstatus hrun⟩⟩

end

end Vexil.Operator
