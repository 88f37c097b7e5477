import Vexil.Operator.Attempt

/-!
# What a reconcile records

The status a reconcile leaves behind when no call fails. The count in it is the
length of the list of Deployments that was read at the start, and `targets` is
that number as a function of the cluster: selection looks at metadata only,
which no reconcile touches, so the count is the same before the run and after
it (`targets_congr`).
-/

namespace Vexil.Operator

open Vexil.Lib Vexil.Kube

section
variable [Apimachinery]

/-- The Deployments a flag is delivered to. -/
def selected (f : FeatureFlag) (s : Cluster) : List Deployment :=
  match envTarget f with
  | none => []
  | some t => s.deployments.rows.items.filter t.selects

/-- `targetedWorkloads`, of a cluster. -/
def targets (f : FeatureFlag) (s : Cluster) : Nat := (selected f s).length

/-- The status a reconcile writes when all its calls are answered. -/
def recorded (now : Nat) (f : FeatureFlag) (s : Cluster) : FeatureFlagStatus :=
  if f.spec.disabled then newStatus now f .disabled f.spec.defaultValue 0
  else if envFails f then newStatus now f .failed f.spec.defaultValue 0
  else newStatus now f .active f.spec.defaultValue (targets f s)

/-! ## The count -/

theorem envTarget_of_selector {f : FeatureFlag} {delivery : EnvVarDelivery}
    {selector : GoMap String → Bool} (hdis : f.spec.disabled = false)
    (hdel : f.spec.delivery.bind DeliverySpec.envVar = some delivery)
    (hsel : Apimachinery.labelSelectorAsSelector delivery.selector =
      .ok selector) :
    envTarget f = some ⟨envVarName f delivery, fun d =>
      d.metadata.ns = f.metadata.ns ∧ selector d.metadata.labels⟩ := by
  simp [envTarget, envDelivery, hdis, hdel, hsel]

theorem selected_of_selector {f : FeatureFlag} {delivery : EnvVarDelivery}
    {selector : GoMap String → Bool} {s : Cluster}
    (hdis : f.spec.disabled = false)
    (hdel : f.spec.delivery.bind DeliverySpec.envVar = some delivery)
    (hsel : Apimachinery.labelSelectorAsSelector delivery.selector =
      .ok selector) :
    selected f s = s.deployments.rows.items.filter fun d =>
      d.metadata.ns = f.metadata.ns ∧ selector d.metadata.labels := by
  rw [selected, envTarget_of_selector hdis hdel hsel]

theorem selects_metadata {f : FeatureFlag} {t : EnvTarget}
    (ht : envTarget f = some t) {s s' : Cluster} {k : ObjectKey}
    (h : (deployAt s' k).map Deployment.metadata =
      (deployAt s k).map Deployment.metadata) :
    (s'.deployments.get? k).any t.selects =
      (s.deployments.get? k).any t.selects := by
  unfold deployAt at h
  cases hd : s.deployments.get? k with
  | none =>
      rw [hd] at h
      cases hd' : s'.deployments.get? k with
      | none => rfl
      | some d' =>
          rw [hd'] at h
          cases h
  | some d =>
      rw [hd] at h
      cases hd' : s'.deployments.get? k with
      | none =>
          rw [hd'] at h
          cases h
      | some d' =>
          rw [hd'] at h
          have hmeta : d'.content.metadata = d.content.metadata :=
            Option.some.inj h
          rw [Option.any_some, Option.any_some, ← selects_content ht d,
            ← selects_content ht d']
          exact selects_congr ht (by rw [hmeta]) (by rw [hmeta])

/-- As long as no metadata change, neither does the count. -/
theorem targets_congr {f : FeatureFlag} {s s' : Cluster}
    (h : ∀ k, (deployAt s' k).map Deployment.metadata =
      (deployAt s k).map Deployment.metadata) : targets f s' = targets f s := by
  unfold targets selected
  cases ht : envTarget f with
  | none => rfl
  | some t =>
      exact Table.length_filter_congr fun k => selects_metadata ht (h k)

theorem targets_declared (f : FeatureFlag) (s : Cluster) :
    targets f.declared s = targets f s := rfl

theorem Reach.metadata {f : FeatureFlag} {complete : Prop} {s s' : Cluster}
    (h : Reach f complete s s') (k : ObjectKey) :
    (deployAt s' k).map Deployment.metadata =
      (deployAt s k).map Deployment.metadata := by
  rcases h.deployments k with hd | hd
  · rw [hd]
  · rw [hd, Option.map_map]
    congr 1
    exact funext (metadata_desiredDeployment f)

/-- The loop counts every Deployment it was given. -/
theorem envVar_counts {f : FeatureFlag} {delivery : EnvVarDelivery}
    {s s' : Cluster} {tr : List KubeEvent} {n : Nat}
    (hdis : f.spec.disabled = false)
    (hdel : f.spec.delivery.bind DeliverySpec.envVar = some delivery)
    (h : Completes CleanStep (deliverViaEnvVar f delivery f.spec.defaultValue)
      s tr (.ok n) s') : n = targets f s := by
  cases envVar_cases CleanStep.kubeStep h with
  | @looped selector ds _ _ _ hsel hlist hloop =>
      obtain ⟨_, hnodup, hcur, _⟩ := kubeStep_listDeployments hlist.kubeStep
      have hends := updateDeployments_ends hcur hnodup
        (hloop.mono fun _ _ _ => CleanStep.kubeStep)
      have hcount := (hends.done n rfl).1
      have hds : selected f s = ds := by
        rw [selected_of_selector hdis hdel hsel]
        exact Except.ok.inj (congrArg Prod.fst hlist)
      rw [targets, hds]
      omega

theorem targets_of_no_envVar {f : FeatureFlag} {s : Cluster}
    (h : f.spec.delivery.bind DeliverySpec.envVar = none) :
    targets f s = 0 := by
  have ht : envTarget f = none := by simp [envTarget, envDelivery, h]
  simp [targets, selected, ht]

/-- What a delivery reports. -/
theorem deliver_reports {f : FeatureFlag} {s s' : Cluster}
    {tr : List KubeEvent} {result : Except String Nat}
    (hdis : f.spec.disabled = false)
    (h : Completes CleanStep (deliver f f.spec.defaultValue) s tr result s') :
    if envFails f then ∃ err, result = .error err
    else result = .ok (targets f s) := by
  have hreports : ∀ {tr r m}, EnvHalfRun CleanStep f f.spec.defaultValue s tr r
      m → (envFails f = true ∧ ∃ err, r = .error err) ∨
        envFails f = false ∧ r = .ok (targets f s) := by
    intro tr r m henv
    cases henv with
    | absent hno =>
        rw [targets_of_no_envVar hno]
        exact .inr ⟨by simp [envFails, hno], rfl⟩
    | asked hdel hrun =>
        obtain ⟨n, rfl⟩ | ⟨⟨why, hsel⟩, _⟩ := envVar_clean hrun
        · rw [envVar_counts hdis hdel hrun]
          exact .inr ⟨envFails_of_ok hdel hrun, rfl⟩
        · have hfails : envFails f = true := by simp [envFails, hdel, hsel]
          refine .inl ⟨hfails, ?_⟩
          cases r with
          | error err => exact ⟨err, rfl⟩
          | ok n =>
              rw [envFails_of_ok hdel hrun] at hfails
              cases hfails
  cases deliver_cases h with
  | envFailed henv =>
      obtain ⟨hfails, _⟩ | ⟨_, hr⟩ := hreports henv
      · rw [if_pos hfails]
        exact ⟨_, rfl⟩
      · cases hr
  | reached henv hcm =>
      obtain ⟨_, err, hr⟩ | ⟨hfails, hr⟩ := hreports henv
      · cases hr
      · cases hr
        rw [hfails, if_neg Bool.false_ne_true]
        cases hcm with
        | absent => rfl
        | asked _ hrun =>
            obtain rfl := configMap_clean hrun
            rfl

/-! ## The status -/

omit [Apimachinery] in
/-- The status write goes through, from the flag that is stored. -/
theorem updateStatus_clean {now : Nat} {flag : FeatureFlag} {phase : FlagPhase}
    {value : String} {count : Nat} {s s' : Cluster} {tr : List KubeEvent}
    {result : Except String Result}
    (hflag : s.flags.get? flag.metadata.objectKey = some flag)
    (h : Completes CleanStep (updateStatus now flag phase value count)
      s tr result s') :
    ∃ g, s'.flags.get? flag.metadata.objectKey = some g ∧
      g.status = newStatus now flag phase value count := by
  obtain ⟨r, _, hstep, _⟩ := updateStatus_call h
  obtain ⟨b, t', hu⟩ : ∃ b t', s.flags.update mergeFlagStatus { flag with
      status := newStatus now flag phase value count } = (.ok b, t') :=
    VTable.update_of_current hflag rfl
  have hr : written (s.flags.update mergeFlagStatus { flag with
      status := newStatus now flag phase value count }).1 = r :=
    congrArg Prod.fst hstep
  rw [hu] at hr
  subst hr
  obtain ⟨old, hold, _, hs⟩ := kubeStep_updateFlagStatus hstep.kubeStep
  have hold' : s.flags.get? flag.metadata.objectKey = some old := hold
  rw [hflag] at hold'
  obtain rfl := Option.some.inj hold'
  rcases hs with ⟨hsame, rfl⟩ | rfl
  · exact ⟨flag, hflag, (congrArg FeatureFlag.status hsame).symm⟩
  · exact ⟨_, VTable.get?_write_self s.flags (mergeFlagStatus flag
      { flag with status := newStatus now flag phase value count }), rfl⟩

omit [Apimachinery] in
/-- The status that is stored already is not written again. -/
theorem updateStatus_same {now : Nat} {flag : FeatureFlag} {phase : FlagPhase}
    {value : String} {count : Nat} {s s' : Cluster} {tr : List KubeEvent}
    {result : Except String Result}
    (hflag : s.flags.get? flag.metadata.objectKey = some flag)
    (hsame : newStatus now flag phase value count = flag.status)
    (h : Completes CleanStep (updateStatus now flag phase value count)
      s tr result s') : s' = s := by
  obtain ⟨r, _, hstep, _⟩ := updateStatus_call h
  rw [hsame] at hstep
  have hs : s' = { s with
      flags := (s.flags.update mergeFlagStatus flag).2 } :=
    (congrArg Prod.snd hstep).symm
  rw [hs, VTable.update_same hflag rfl rfl]

/-- How a reconcile in which no call failed ends: it writes the status of what
it did. -/
theorem reconcile_status {now : Nat} {req : ObjectKey} {f : FeatureFlag}
    {s s' : Cluster} {tr : List KubeEvent} {result : Except String Result}
    (hf : s.flags.get? req = some f)
    (h : Completes CleanStep (reconcile now req) s tr result s') :
    ∃ phase count tr' m, m.flags = s.flags ∧
      newStatus now f phase f.spec.defaultValue count = recorded now f s ∧
      Completes CleanStep (updateStatus now f phase f.spec.defaultValue count)
        m tr' result s' := by
  have hstored : ∀ {tr r m}, f.spec.disabled = false →
      Completes CleanStep (deliver f f.spec.defaultValue) s tr r m →
      m.flags = s.flags := by
    intro tr r m hdis hdeliver
    have hrest := (deliver_reach hdis
      (hdeliver.mono fun _ _ _ => CleanStep.kubeStep)).2
    rw [hrest]
  cases reconcile_cases CleanStep.kubeStep h with
  | unread hget =>
      have hr : found (s.flags.get? req) = _ := congrArg Prod.fst hget
      rw [hf] at hr
      cases hr
  | disabled hg hdis hstatus =>
      obtain rfl := Option.some.inj (hf.symm.trans hg)
      rw [recorded, if_pos hdis]
      exact ⟨_, _, _, _, rfl, rfl, hstatus⟩
  | failed hg hdis hdeliver hstatus =>
      obtain rfl := Option.some.inj (hf.symm.trans hg)
      have hreports := deliver_reports hdis hdeliver
      rw [recorded, if_neg (by rw [hdis]; exact Bool.false_ne_true)]
      split at hreports
      · next hfails =>
          rw [if_pos hfails]
          exact ⟨_, _, _, _, hstored hdis hdeliver, rfl, hstatus⟩
      · cases hreports
  | active hg hdis hdeliver hstatus =>
      obtain rfl := Option.some.inj (hf.symm.trans hg)
      have hreports := deliver_reports hdis hdeliver
      rw [recorded, if_neg (by rw [hdis]; exact Bool.false_ne_true)]
      split at hreports
      · obtain ⟨err, herr⟩ := hreports
        cases herr
      · next hfails =>
          cases hreports
          rw [if_neg hfails]
          exact ⟨_, _, _, _, hstored hdis hdeliver, rfl, hstatus⟩

/-- After a reconcile in which no call failed the flag is stored with the status
that says what was done. -/
theorem reconcile_records {now : Nat} {req : ObjectKey} {f : FeatureFlag}
    {s s' : Cluster} {tr : List KubeEvent} {result : Except String Result}
    (hf : s.flags.get? req = some f)
    (h : Completes CleanStep (reconcile now req) s tr result s') :
    ∃ g, s'.flags.get? req = some g ∧ g.status = recorded now f s := by
  obtain ⟨phase, count, tr', m, hm, hstatus, hrun⟩ := reconcile_status hf h
  have hkey : f.metadata.objectKey = req := VTable.key_of_get? hf
  subst hkey
  rw [← hstatus]
  exact updateStatus_clean (by rw [hm]; exact hf) hrun

/-- And if that is the status it has, the flag stays as it is. -/
theorem reconcile_same {now : Nat} {req : ObjectKey} {f : FeatureFlag}
    {s s' : Cluster} {tr : List KubeEvent} {result : Except String Result}
    (hf : s.flags.get? req = some f) (hsame : f.status = recorded now f s)
    (h : Completes CleanStep (reconcile now req) s tr result s') :
    s'.flags.get? req = some f := by
  obtain ⟨phase, count, tr', m, hm, hstatus, hrun⟩ := reconcile_status hf h
  have hkey : f.metadata.objectKey = req := VTable.key_of_get? hf
  subst hkey
  have hs := updateStatus_same (by rw [hm]; exact hf)
    (hstatus.trans hsame.symm) hrun
  rw [hs, hm]
  exact hf

/-! ## What is never touched -/

/-- A step that leaves the objects alone that the operator never writes. -/
def KeepsOthers (s s' : Cluster) : Prop :=
  s'.statefulSets = s.statefulSets ∧ s'.daemonSets = s.daemonSets

omit [Apimachinery] in
theorem cleanStep_keepsOthers {s s' : Cluster} {e : KubeEvent}
    (h : CleanStep s e s') : KeepsOthers s s' := by
  obtain ⟨c, r⟩ := e
  have hs : s' = (c.serve s).2 := (congrArg Prod.snd h).symm
  subst hs
  cases c with
  | deleteFlag key =>
      simp only [KubeCall.serve]
      split
      · exact ⟨rfl, rfl⟩
      · exact ⟨rfl, rfl⟩
  | getFlag | listFlags | createFlag | updateFlag | updateFlagStatus
  | listDeployments | updateDeployment | listStatefulSets | listDaemonSets
  | getConfigMap | listConfigMaps | createConfigMap | updateConfigMap =>
      exact ⟨rfl, rfl⟩

omit [Apimachinery] in
theorem run_keepsOthers {s s' : Cluster} {tr : List KubeEvent}
    (h : Run CleanStep s tr s') : KeepsOthers s s' :=
  h.invariant (I := KeepsOthers s) (fun _ _ _ hI hstep => by
    obtain ⟨h₁, h₂⟩ := cleanStep_keepsOthers hstep
    exact ⟨h₁.trans hI.1, h₂.trans hI.2⟩) ⟨rfl, rfl⟩

end

end Vexil.Operator
