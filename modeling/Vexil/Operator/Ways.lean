import Vexil.Operator.Reconcile

/-!
# The ways through a reconcile

What a completed run of each part of the operator can look like: which calls it
made, what they answered, and what it returned. There is one constructor for
each way through the code, and it carries what was read on that way. The step
relation is left open, since some results are about runs in which calls fail and
some about runs in which none does; all that is asked of it is that its steps
are steps of the API server.
-/

namespace Vexil.Operator

open Vexil.Lib Vexil.Kube

/-! ## What was read -/

theorem kubeStep_listDeployments {ns : String}
    {selector : GoMap String → Bool} {ds : List Deployment} {s s' : Cluster}
    (h : KubeStep s ⟨.listDeployments ns selector, .ok ds⟩ s') :
    s' = s ∧ (ds.map (·.metadata.objectKey)).Nodup ∧
      (∀ d ∈ ds, s.deployments.get? d.metadata.objectKey = some d) ∧
      ∀ d, d ∈ ds ↔ d ∈ s.deployments.rows.items ∧ d.metadata.ns = ns ∧
        selector d.metadata.labels := by
  have hds : s.deployments.rows.items.filter (fun d =>
      d.metadata.ns = ns ∧ selector d.metadata.labels) = ds :=
    Except.ok.inj (congrArg Prod.fst (kubeStep_ok h))
  have hmem : ∀ d, d ∈ ds ↔ d ∈ s.deployments.rows.items ∧
      d.metadata.ns = ns ∧ selector d.metadata.labels := by
    intro d
    rw [← hds, List.mem_filter]
    simp
  refine ⟨h.of_read rfl, ?_, fun d hd => ?_, hmem⟩
  · rw [← hds]
    exact s.deployments.rows.nodup.sublist (List.filter_sublist.map _)
  · exact Table.get?_of_mem ((hmem d).mp hd).1

/-- An error that says "not found" is the server's answer. -/
theorem getConfigMap_notFound {k : ObjectKey} {s s' : Cluster} {err : ApiError}
    (h : KubeStep s ⟨.getConfigMap k, .error err⟩ s')
    (hnf : err.isNotFound = true) : s.configMaps.get? k = none := by
  rcases kubeStep_cases h with hclean | ⟨_, hfault, _⟩
  · have hfound : found (s.configMaps.get? k) = .error err :=
      congrArg Prod.fst hclean
    cases hcm : s.configMaps.get? k with
    | none => rfl
    | some cm =>
        rw [hcm] at hfound
        cases hfound
  · cases hfault
    cases hnf

/-! ## The delivery through a ConfigMap -/

/-- The ways through the delivery, by where it ends: the ConfigMap cannot be
read, there is none and it is created or not, or there is one, which is updated
or not, or need not be. -/
inductive ConfigMapRun (T : Cluster → KubeEvent → Cluster → Prop)
    (f : FeatureFlag) (delivery : ConfigMapDelivery) (value : String)
    (s : Cluster) : List KubeEvent → Except String Unit → Cluster → Prop
  | unread {err : ApiError} {message : String}
      (hget : T s ⟨.getConfigMap ⟨f.metadata.ns, delivery.configMapName⟩,
        .error err⟩ s) (hnf : err.isNotFound = false) :
      ConfigMapRun T f delivery value s
        [⟨.getConfigMap ⟨f.metadata.ns, delivery.configMapName⟩, .error err⟩]
        (.error message) s
  | uncreated {err err' : ApiError} {message : String}
      (hnone : s.configMaps.get? ⟨f.metadata.ns, delivery.configMapName⟩ = none)
      (hcreate : T s ⟨.createConfigMap (newConfigMap f delivery value),
        .error err'⟩ s) :
      ConfigMapRun T f delivery value s
        [⟨.getConfigMap ⟨f.metadata.ns, delivery.configMapName⟩, .error err⟩,
          ⟨.createConfigMap (newConfigMap f delivery value), .error err'⟩]
        (.error message) s
  | created {err : ApiError} {cm : ConfigMap} {s' : Cluster}
      (hnf : err.isNotFound = true)
      (hnone : s.configMaps.get? ⟨f.metadata.ns, delivery.configMapName⟩ = none)
      (hcreate : T s ⟨.createConfigMap (newConfigMap f delivery value),
        .ok cm⟩ s') :
      ConfigMapRun T f delivery value s
        [⟨.getConfigMap ⟨f.metadata.ns, delivery.configMapName⟩, .error err⟩,
          ⟨.createConfigMap (newConfigMap f delivery value), .ok cm⟩]
        (.ok ()) s'
  | unwritten {cm : ConfigMap} {err : ApiError} {message : String}
      (hcm : s.configMaps.get? ⟨f.metadata.ns, delivery.configMapName⟩ =
        some cm) (hne : (orEmpty cm.data).index delivery.key ≠ value)
      (hupdate : T s ⟨.updateConfigMap { cm with
        data := some ((orEmpty cm.data).insert delivery.key value) },
        .error err⟩ s) :
      ConfigMapRun T f delivery value s
        [⟨.getConfigMap ⟨f.metadata.ns, delivery.configMapName⟩, .ok cm⟩,
          ⟨.updateConfigMap { cm with
            data := some ((orEmpty cm.data).insert delivery.key value) },
            .error err⟩]
        (.error message) s
  | updated {cm cm' : ConfigMap} {s' : Cluster}
      (hcm : s.configMaps.get? ⟨f.metadata.ns, delivery.configMapName⟩ =
        some cm) (hne : (orEmpty cm.data).index delivery.key ≠ value)
      (hupdate : T s ⟨.updateConfigMap { cm with
        data := some ((orEmpty cm.data).insert delivery.key value) },
        .ok cm'⟩ s') :
      ConfigMapRun T f delivery value s
        [⟨.getConfigMap ⟨f.metadata.ns, delivery.configMapName⟩, .ok cm⟩,
          ⟨.updateConfigMap { cm with
            data := some ((orEmpty cm.data).insert delivery.key value) },
            .ok cm'⟩]
        (.ok ()) s'
  | unneeded {cm : ConfigMap}
      (hcm : s.configMaps.get? ⟨f.metadata.ns, delivery.configMapName⟩ =
        some cm) (heq : (orEmpty cm.data).index delivery.key = value) :
      ConfigMapRun T f delivery value s
        [⟨.getConfigMap ⟨f.metadata.ns, delivery.configMapName⟩, .ok cm⟩]
        (.ok ()) s

theorem configMap_cases {T : Cluster → KubeEvent → Cluster → Prop}
    (hT : ∀ {s e s'}, T s e s' → KubeStep s e s') {f : FeatureFlag}
    {delivery : ConfigMapDelivery} {value : String} {s s' : Cluster}
    {tr : List KubeEvent} {result : Except String Unit}
    (h : Completes T (deliverViaConfigMap f delivery value) s tr result s') :
    ConfigMapRun T f delivery value s tr result s' := by
  unfold deliverViaConfigMap at h
  obtain ⟨r, tr', m, rfl, hget, hnext⟩ := completes_call.mp h
  obtain rfl := (hT hget).of_read rfl
  cases r with
  | error err =>
      dsimp only at hnext
      split at hnext
      · next hnf =>
          have hnone := getConfigMap_notFound (hT hget) hnf
          obtain ⟨r, tr', m', rfl, hcreate, hend⟩ := completes_call.mp hnext
          cases r with
          | error err' =>
              obtain ⟨rfl, rfl, rfl⟩ := completes_ret.mp hend
              obtain rfl := (hT hcreate).of_error
              exact .uncreated hnone hcreate
          | ok cm =>
              obtain ⟨rfl, rfl, rfl⟩ := completes_ret.mp hend
              exact .created hnf hnone hcreate
      · next hnf =>
          obtain ⟨rfl, rfl, rfl⟩ := completes_ret.mp hnext
          exact .unread hget (Bool.eq_false_iff.mpr hnf)
  | ok cm =>
      have hcm := found_ok (congrArg Prod.fst (kubeStep_ok (hT hget)))
      dsimp only at hnext
      split at hnext
      · next hne =>
          obtain ⟨r, tr', m', rfl, hupdate, hend⟩ := completes_call.mp hnext
          cases r with
          | error err' =>
              obtain ⟨rfl, rfl, rfl⟩ := completes_ret.mp hend
              obtain rfl := (hT hupdate).of_error
              exact .unwritten hcm hne hupdate
          | ok cm' =>
              obtain ⟨rfl, rfl, rfl⟩ := completes_ret.mp hend
              exact .updated hcm hne hupdate
      · next heq =>
          obtain ⟨rfl, rfl, rfl⟩ := completes_ret.mp hnext
          exact .unneeded hcm (not_not.mp heq)

section
variable [Apimachinery]

/-! ## The delivery through env variables -/

/-- The ways through the delivery: it does not start without a selector, it ends
when the list fails, and otherwise it is the loop over what is listed. -/
inductive EnvVarRun (T : Cluster → KubeEvent → Cluster → Prop)
    (f : FeatureFlag) (delivery : EnvVarDelivery) (value : String)
    (s : Cluster) : List KubeEvent → Except String Nat → Cluster → Prop
  | unselected {err message : String}
      (hsel : Apimachinery.labelSelectorAsSelector delivery.selector =
        .error err) : EnvVarRun T f delivery value s [] (.error message) s
  | unlisted {selector : GoMap String → Bool} {err : ApiError}
      {message : String}
      (hsel : Apimachinery.labelSelectorAsSelector delivery.selector =
        .ok selector)
      (hlist : T s ⟨.listDeployments f.metadata.ns selector, .error err⟩ s) :
      EnvVarRun T f delivery value s
        [⟨.listDeployments f.metadata.ns selector, .error err⟩]
        (.error message) s
  | looped {selector : GoMap String → Bool} {ds : List Deployment}
      {tr : List KubeEvent} {result : Except String Nat} {s' : Cluster}
      (hsel : Apimachinery.labelSelectorAsSelector delivery.selector =
        .ok selector)
      (hlist : T s ⟨.listDeployments f.metadata.ns selector, .ok ds⟩ s)
      (hloop : Completes T (updateDeployments f.metadata.name
        (envVarName f delivery) value ds 0) s tr result s') :
      EnvVarRun T f delivery value s
        (⟨.listDeployments f.metadata.ns selector, .ok ds⟩ :: tr) result s'

theorem envVar_cases {T : Cluster → KubeEvent → Cluster → Prop}
    (hT : ∀ {s e s'}, T s e s' → KubeStep s e s') {f : FeatureFlag}
    {delivery : EnvVarDelivery} {value : String} {s s' : Cluster}
    {tr : List KubeEvent} {result : Except String Nat}
    (h : Completes T (deliverViaEnvVar f delivery value) s tr result s') :
    EnvVarRun T f delivery value s tr result s' := by
  unfold deliverViaEnvVar at h
  split at h
  · next err hsel =>
      obtain ⟨rfl, rfl, rfl⟩ := completes_ret.mp h
      exact .unselected hsel
  · next selector hsel =>
      obtain ⟨r, tr', m, rfl, hlist, hloop⟩ := completes_call.mp h
      obtain rfl := (hT hlist).of_read rfl
      cases r with
      | error err =>
          obtain ⟨rfl, rfl, rfl⟩ := completes_ret.mp hloop
          exact .unlisted hsel hlist
      | ok ds => exact .looped hsel hlist hloop

/-! ## The whole delivery

The two halves, each if the flag asks for it. -/

inductive EnvHalfRun (T : Cluster → KubeEvent → Cluster → Prop)
    (f : FeatureFlag) (value : String) (s : Cluster) :
    List KubeEvent → Except String Nat → Cluster → Prop
  | absent (hno : f.spec.delivery.bind DeliverySpec.envVar = none) :
      EnvHalfRun T f value s [] (.ok 0) s
  | asked {delivery : EnvVarDelivery} {tr : List KubeEvent}
      {r : Except String Nat} {s' : Cluster}
      (hdel : f.spec.delivery.bind DeliverySpec.envVar = some delivery)
      (h : Completes T (deliverViaEnvVar f delivery value) s tr r s') :
      EnvHalfRun T f value s tr r s'

/-- After a count of `targeted`. -/
inductive ConfigMapHalfRun (T : Cluster → KubeEvent → Cluster → Prop)
    (f : FeatureFlag) (value : String) (targeted : Nat) (s : Cluster) :
    List KubeEvent → Except String Nat → Cluster → Prop
  | absent (hno : f.spec.delivery.bind DeliverySpec.configMap = none) :
      ConfigMapHalfRun T f value targeted s [] (.ok targeted) s
  | asked {delivery : ConfigMapDelivery} {tr : List KubeEvent}
      {r : Except String Unit} {s' : Cluster}
      (hdel : f.spec.delivery.bind DeliverySpec.configMap = some delivery)
      (h : Completes T (deliverViaConfigMap f delivery value) s tr r s') :
      ConfigMapHalfRun T f value targeted s tr (r.map fun _ => targeted) s'

/-- The ConfigMap is reached when the env half returns no error. -/
inductive DeliverRun (T : Cluster → KubeEvent → Cluster → Prop)
    (f : FeatureFlag) (value : String) (s : Cluster) :
    List KubeEvent → Except String Nat → Cluster → Prop
  | envFailed {err : String} {tr : List KubeEvent} {s' : Cluster}
      (henv : EnvHalfRun T f value s tr (.error err) s') :
      DeliverRun T f value s tr (.error err) s'
  | reached {targeted : Nat} {tr₁ tr₂ : List KubeEvent}
      {r : Except String Nat} {m s' : Cluster}
      (henv : EnvHalfRun T f value s tr₁ (.ok targeted) m)
      (hcm : ConfigMapHalfRun T f value targeted m tr₂ r s') :
      DeliverRun T f value s (tr₁ ++ tr₂) r s'

theorem deliver_cases {T : Cluster → KubeEvent → Cluster → Prop}
    {f : FeatureFlag} {value : String} {s s' : Cluster} {tr : List KubeEvent}
    {result : Except String Nat}
    (h : Completes T (deliver f value) s tr result s') :
    DeliverRun T f value s tr result s' := by
  unfold deliver at h
  split at h
  · next hdel =>
      obtain ⟨rfl, rfl, rfl⟩ := completes_ret.mp h
      have hneither : DeliverRun T f value s' ([] ++ []) (.ok 0) s' :=
        .reached (.absent (by rw [hdel]; rfl)) (.absent (by rw [hdel]; rfl))
      exact hneither
  · next delivery hdel =>
      obtain ⟨r, tr₁, tr₂, m, rfl, h₁, h₂⟩ := completes_bind h
      have henv : EnvHalfRun T f value s tr₁ r m := by
        cases hvar : delivery.envVar with
        | none =>
            rw [hvar] at h₁
            obtain ⟨rfl, rfl, rfl⟩ := completes_ret.mp h₁
            exact .absent (by rw [hdel]; exact hvar)
        | some envVar =>
            rw [hvar] at h₁
            exact .asked (by rw [hdel]; exact hvar) h₁
      cases r with
      | error err =>
          obtain ⟨rfl, rfl, rfl⟩ := completes_ret.mp h₂
          rw [List.append_nil]
          exact .envFailed henv
      | ok targeted =>
          refine .reached henv ?_
          dsimp only at h₂
          cases hmap : delivery.configMap with
          | none =>
              rw [hmap] at h₂
              obtain ⟨rfl, rfl, rfl⟩ := completes_ret.mp h₂
              exact .absent (by rw [hdel]; exact hmap)
          | some configMap =>
              rw [hmap] at h₂
              obtain ⟨r, tr₃, tr₄, m', rfl, h₃, h₄⟩ := completes_bind h₂
              obtain ⟨rfl, hresult, rfl⟩ := completes_ret.mp h₄
              have hmapped : result = r.map fun _ => targeted := by
                rw [hresult]
                cases r <;> rfl
              rw [List.append_nil, hmapped]
              exact .asked (by rw [hdel]; exact hmap) h₃

/-! ## The whole reconcile -/

omit [Apimachinery] in
/-- The status is one call. -/
theorem updateStatus_call {T : Cluster → KubeEvent → Cluster → Prop}
    {now : Nat} {f : FeatureFlag} {phase : FlagPhase} {value : String}
    {count : Nat} {s s' : Cluster} {tr : List KubeEvent}
    {result : Except String Result}
    (h : Completes T (updateStatus now f phase value count) s tr result s') :
    ∃ r, tr = [⟨.updateFlagStatus { f with
        status := newStatus now f phase value count }, r⟩] ∧
      T s ⟨.updateFlagStatus { f with
        status := newStatus now f phase value count }, r⟩ s' ∧
      (result = .ok {} ↔ ∃ g, r = .ok g) := by
  obtain ⟨r, tr', m, rfl, hstep, hend⟩ := completes_call.mp h
  cases r with
  | error err =>
      obtain ⟨rfl, rfl, rfl⟩ := completes_ret.mp hend
      refine ⟨_, rfl, hstep, iff_of_false (fun hok => nomatch hok) ?_⟩
      rintro ⟨g, hg⟩
      cases hg
  | ok g =>
      obtain ⟨rfl, rfl, rfl⟩ := completes_ret.mp hend
      exact ⟨_, rfl, hstep, iff_of_true rfl ⟨g, rfl⟩⟩

inductive ReconcileRun (T : Cluster → KubeEvent → Cluster → Prop) (now : Nat)
    (req : ObjectKey) (s : Cluster) :
    List KubeEvent → Except String Result → Cluster → Prop
  | unread {err : ApiError} {result : Except String Result}
      (hget : T s ⟨.getFlag req, .error err⟩ s)
      (hresult : result =
        if err.isNotFound then .ok {} else .error err.message) :
      ReconcileRun T now req s [⟨.getFlag req, .error err⟩] result s
  | disabled {f : FeatureFlag} {tr : List KubeEvent}
      {result : Except String Result} {s' : Cluster}
      (hf : s.flags.get? req = some f) (hdis : f.spec.disabled = true)
      (hstatus : Completes T
        (updateStatus now f .disabled f.spec.defaultValue 0) s tr result s') :
      ReconcileRun T now req s (⟨.getFlag req, .ok f⟩ :: tr) result s'
  | failed {f : FeatureFlag} {err : String} {tr₁ tr₂ : List KubeEvent}
      {result : Except String Result} {m s' : Cluster}
      (hf : s.flags.get? req = some f) (hdis : f.spec.disabled = false)
      (hdeliver : Completes T (deliver f f.spec.defaultValue) s tr₁
        (.error err) m)
      (hstatus : Completes T
        (updateStatus now f .failed f.spec.defaultValue 0) m tr₂ result s') :
      ReconcileRun T now req s (⟨.getFlag req, .ok f⟩ :: (tr₁ ++ tr₂)) result
        s'
  | active {f : FeatureFlag} {targeted : Nat} {tr₁ tr₂ : List KubeEvent}
      {result : Except String Result} {m s' : Cluster}
      (hf : s.flags.get? req = some f) (hdis : f.spec.disabled = false)
      (hdeliver : Completes T (deliver f f.spec.defaultValue) s tr₁
        (.ok targeted) m)
      (hstatus : Completes T
        (updateStatus now f .active f.spec.defaultValue targeted) m tr₂ result
        s') :
      ReconcileRun T now req s (⟨.getFlag req, .ok f⟩ :: (tr₁ ++ tr₂)) result
        s'

theorem reconcile_cases {T : Cluster → KubeEvent → Cluster → Prop}
    (hT : ∀ {s e s'}, T s e s' → KubeStep s e s') {now : Nat}
    {req : ObjectKey} {s s' : Cluster} {tr : List KubeEvent}
    {result : Except String Result}
    (h : Completes T (reconcile now req) s tr result s') :
    ReconcileRun T now req s tr result s' := by
  obtain ⟨r, tr', m, rfl, hget, hnext⟩ := completes_call.mp h
  obtain rfl := (hT hget).of_read rfl
  cases r with
  | error err =>
      dsimp only at hnext
      split at hnext
      · next hnf =>
          obtain ⟨rfl, rfl, rfl⟩ := completes_ret.mp hnext
          exact .unread hget (if_pos hnf).symm
      · next hnf =>
          obtain ⟨rfl, rfl, rfl⟩ := completes_ret.mp hnext
          exact .unread hget (if_neg hnf).symm
  | ok f =>
      have hf := found_ok (congrArg Prod.fst (kubeStep_ok (hT hget)))
      dsimp only [reconcileFlag] at hnext
      split at hnext
      · next hdis => exact .disabled hf hdis hnext
      · next hdis =>
          have hdis' := Bool.eq_false_of_not_eq_true hdis
          obtain ⟨r, tr₁, tr₂, m, rfl, h₁, h₂⟩ := completes_bind hnext
          cases r with
          | error err => exact .failed hf hdis' h₁ h₂
          | ok targeted => exact .active hf hdis' h₁ h₂

end

end Vexil.Operator
