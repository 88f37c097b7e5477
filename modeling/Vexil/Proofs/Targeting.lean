import Vexil.Operator.Recorded
import Vexil.Proofs.ScanLocality

/-!
# Who is targeted

Two places decide which workloads a flag is delivered to. The operator lists
Deployments by the selector and injects into what it gets; the API server scans
Deployments, StatefulSets and DaemonSets and matches each against the selector
in memory, to tell the user. Both convert the same selector and apply it to the
same labels, so on Deployments they agree, for every selector, the empty one and
the missing one included. They agree on the whole exactly if nothing else is
matched (`targeting_agrees_iff`).

The first half computes the API's answer after the run, as a predicate on the
workloads of the namespace; the second the operator's, from the events of the
run. Labels are not touched by a reconcile, so the two can be compared.
-/

namespace Vexil.Server

open Vexil.Lib Vexil.Kube Vexil.Operator WorkloadHandler

/-! ## The two views -/

/-- A list call of the workloads API that covers a namespace: one that asks for
it, or one that asks for all and does not leave it out. -/
def AsksAbout (q ns : String) : Prop :=
  q = ns ∨ q = "" ∧ ns ∉ systemNamespaces

section
variable [Apimachinery]

/-- The API lists the flag for the workload. -/
def Shown (clusterID q flag : String) (s : Cluster) (w : Workload) : Prop :=
  ∃ wl ∈ listedIn clusterID q s, wl.kind = w.kind ∧ wl.ns = w.metadata.ns ∧
    wl.name = w.metadata.name ∧ flag ∈ wl.matchingFlags

end

/-- The run got the workload from the API server and went on to inject into it:
the loop goes through all the Deployments it listed. -/
def ReachedBy (tr : List KubeEvent) (w : Workload) : Prop :=
  w.kind = "Deployment" ∧ ∃ ns selector ds,
    (⟨.listDeployments ns selector, .ok ds⟩ : KubeEvent) ∈ tr ∧
      ∃ d ∈ ds, d.metadata.objectKey = w.metadata.objectKey

/-- The run delivered the flag to the workload, and it is there. -/
structure Delivered (tr : List KubeEvent) (envName value : String)
    (w : Workload) : Prop where
  reached : ReachedBy tr w
  carries : ∀ c ∈ w.template.containers, firstValue envName c.env = some value

/-- After the run `tr` of a reconcile, which left `s'`, the API lists the flag
for the workloads it was delivered to and for no others, and the status counts
them. -/
structure TargetingAgrees [Apimachinery] (clusterID q : String)
    (f : FeatureFlag) (delivery : EnvVarDelivery) (tr : List KubeEvent)
    (s' : Cluster) : Prop where
  workloads : ∀ w ∈ workloadsIn s' f.metadata.ns,
    Shown clusterID q f.metadata.name s' w ↔
      Delivered tr (envVarName f delivery) f.spec.defaultValue w
  count : ∃ g, s'.flags.get? f.metadata.objectKey = some g ∧
    g.status.targetedWorkloads = ((listedIn clusterID q s').filter fun wl =>
      wl.ns = f.metadata.ns ∧ f.metadata.name ∈ wl.matchingFlags).length

/-! ## Workloads -/

theorem mem_workloadsIn {s : Cluster} {ns : String} {w : Workload} :
    w ∈ workloadsIn s ns ↔
      (∃ d ∈ s.deployments.rows.items, d.metadata.ns = ns ∧
        ofDeployment d = w) ∨
      (∃ d ∈ s.statefulSets.rows.items, d.metadata.ns = ns ∧
        ofStatefulSet d = w) ∨
      ∃ d ∈ s.daemonSets.rows.items, d.metadata.ns = ns ∧ ofDaemonSet d = w := by
  simp [workloadsIn, and_assoc]

/-- A workload is known by its kind and its name. -/
theorem workload_unique {s : Cluster} {ns : String} {w w' : Workload}
    (hw : w ∈ workloadsIn s ns) (hw' : w' ∈ workloadsIn s ns)
    (hkind : w.kind = w'.kind)
    (hname : w.metadata.name = w'.metadata.name) : w = w' := by
  have hkey : w.metadata.objectKey = w'.metadata.objectKey := by
    rw [ObjectMeta.objectKey, ObjectMeta.objectKey, ns_of_mem hw, ns_of_mem hw',
      hname]
  rcases mem_workloadsIn.mp hw with ⟨d, hd, _, rfl⟩ | ⟨d, hd, _, rfl⟩ |
    ⟨d, hd, _, rfl⟩
  · rcases mem_workloadsIn.mp hw' with ⟨e, he, _, rfl⟩ | ⟨e, _, _, rfl⟩ |
      ⟨e, _, _, rfl⟩
    · rw [Table.eq_of_key hd he hkey]
    · simp [ofDeployment, ofStatefulSet] at hkind
    · simp [ofDeployment, ofDaemonSet] at hkind
  · rcases mem_workloadsIn.mp hw' with ⟨e, _, _, rfl⟩ | ⟨e, he, _, rfl⟩ |
      ⟨e, _, _, rfl⟩
    · simp [ofDeployment, ofStatefulSet] at hkind
    · rw [Table.eq_of_key hd he hkey]
    · simp [ofStatefulSet, ofDaemonSet] at hkind
  · rcases mem_workloadsIn.mp hw' with ⟨e, _, _, rfl⟩ | ⟨e, _, _, rfl⟩ |
      ⟨e, he, _, rfl⟩
    · simp [ofDeployment, ofDaemonSet] at hkind
    · simp [ofStatefulSet, ofDaemonSet] at hkind
    · rw [Table.eq_of_key hd he hkey]

/-- Of the workloads only Deployments depend on the Deployments. -/
theorem mem_workloadsIn_of_keepsOthers {s s' : Cluster} {ns : String}
    {w : Workload} (h : KeepsOthers s s') (hkind : w.kind ≠ "Deployment") :
    w ∈ workloadsIn s' ns ↔ w ∈ workloadsIn s ns := by
  have hno : ∀ d : Deployment, ofDeployment d ≠ w := fun d hd =>
    hkind (hd ▸ rfl)
  rw [mem_workloadsIn, mem_workloadsIn, h.1, h.2]
  simp [hno]

/-! ## What the API shows -/

theorem mem_flaggedNamespaces {s : Cluster} {k : ObjectKey} {f : FeatureFlag}
    (hf : s.flags.get? k = some f) : f.metadata.ns ∈ flaggedNamespaces s := by
  rw [flaggedNamespaces, List.mem_mergeSort, List.mem_dedup]
  exact List.mem_map_of_mem (Table.mem_of_get? hf)

section
variable [Apimachinery]

/-- Each workload of the namespace is shown once. -/
theorem listedIn_ns (clusterID : String) {q ns : String} {s : Cluster}
    (hq : AsksAbout q ns) (hflags : ns ∈ flaggedNamespaces s) :
    ∃ managed, (listedIn clusterID q s).filter (·.ns = ns) =
      (workloadsIn s ns).map fun w =>
        enriched s (discovered clusterID managed w) := by
  by_cases hall : q = ""
  · have hns : ns ∉ systemNamespaces := by
      rcases hq with rfl | ⟨_, hns⟩
      · rw [hall]
        decide
      · exact hns
    subst hall
    refine ⟨(scannedBefore s ns).flatMap (managedConfigMaps s) ++
      managedConfigMaps s ns, ?_⟩
    rw [listedIn_all_filter hns hflags, List.map_map]
    rfl
  · obtain rfl : q = ns := by
      rcases hq with hq | ⟨hq, _⟩
      · exact hq
      · exact absurd hq hall
    refine ⟨managedConfigMaps s q, ?_⟩
    rw [listedIn_of_flagged hall hflags, List.map_map]
    refine List.filter_eq_self.mpr fun wl hwl => ?_
    obtain ⟨w, hw, rfl⟩ := List.mem_map.mp hwl
    exact decide_eq_true (ns_of_mem hw)

/-- A stored flag is listed for what its own selector matches. -/
theorem mem_matchingFlags {s : Cluster} {k : ObjectKey} {f : FeatureFlag}
    (hf : s.flags.get? k = some f) (clusterID : String) (managed : List String)
    {w : Workload} (hw : w.metadata.ns = f.metadata.ns) :
    f.metadata.name ∈ (enriched s (discovered clusterID managed w)).matchingFlags ↔
      (flagSelector f).any fun fs => fs.selector w.metadata.labels := by
  have hmem : f ∈ s.flags.rows.items := Table.mem_of_get? hf
  rw [Option.any_eq_true]
  constructor
  · intro h
    have h' : f.metadata.name ∈ ((selectorsIn s w.metadata.ns).filter
        fun fs => fs.selector w.metadata.labels).map FlagSelector.name := h
    obtain ⟨fs, hfs, hname⟩ := List.mem_map.mp h'
    obtain ⟨hfs, hsel⟩ := List.mem_filter.mp hfs
    obtain ⟨g, hg, hgfs⟩ := List.mem_filterMap.mp hfs
    obtain ⟨hg, hns⟩ := List.mem_filter.mp hg
    -- flags of one namespace are told apart by their names
    have hgf : g = f := by
      refine Table.eq_of_key hg hmem ?_
      show ObjectKey.mk g.metadata.ns g.metadata.name =
        ObjectKey.mk f.metadata.ns f.metadata.name
      rw [← name_of_flagSelector hgfs, hname, ← hw, of_decide_eq_true hns]
    exact ⟨fs, hgf ▸ hgfs, hsel⟩
  · rintro ⟨fs, hfs, hsel⟩
    show f.metadata.name ∈ ((selectorsIn s w.metadata.ns).filter
        fun fs => fs.selector w.metadata.labels).map FlagSelector.name
    rw [← name_of_flagSelector hfs]
    refine List.mem_map_of_mem (List.mem_filter.mpr ⟨?_, hsel⟩)
    exact List.mem_filterMap.mpr
      ⟨f, List.mem_filter.mpr ⟨hmem, decide_eq_true hw⟩, hfs⟩

/-- The API converts the selector of the envVar delivery like the operator, if
there is one; the conversion of a missing one matches nothing. -/
theorem flagSelector_any {f : FeatureFlag} {delivery : EnvVarDelivery}
    {selector : GoMap String → Bool}
    (hnil : Apimachinery.labelSelectorAsSelector none = .ok fun _ => false)
    (hdel : f.spec.delivery.bind DeliverySpec.envVar = some delivery)
    (hsel : Apimachinery.labelSelectorAsSelector delivery.selector =
      .ok selector) (labels : GoMap String) :
    ((flagSelector f).any fun fs => fs.selector labels) = selector labels := by
  obtain ⟨spec, hspec, henv⟩ := Option.bind_eq_some_iff.mp hdel
  have hls : f.spec.delivery.bind deliverySelector = delivery.selector := by
    rw [hspec, Option.bind_some, deliverySelector, henv]
  rw [flagSelector, hls]
  cases hd : delivery.selector with
  | none =>
      rw [hd, hnil] at hsel
      obtain rfl := Except.ok.inj hsel
      rfl
  | some ls =>
      rw [hd] at hsel
      simp only [hsel]
      rfl

end

/-! ## What the operator does -/

/-- A call other than one for Deployments. -/
def NoList (c : KubeCall) : Prop :=
  ∀ ns selector, c ≠ .listDeployments ns selector

theorem updateDeployments_noList (flagName envName value : String)
    (ds : List Deployment) (count : Nat) :
    Prog.Calls NoList (updateDeployments flagName envName value ds count) := by
  induction ds generalizing count with
  | nil => exact Prog.calls_ret
  | cons d ds ih =>
      rw [updateDeployments]
      split
      · refine Prog.calls_call.mpr ⟨fun _ _ h => (by cases h), fun r => ?_⟩
        cases r with
        | error err => exact Prog.calls_ret
        | ok d' => exact ih _
      · exact ih _

theorem deliverViaConfigMap_noList (f : FeatureFlag)
    (delivery : ConfigMapDelivery) (value : String) :
    Prog.Calls NoList (deliverViaConfigMap f delivery value) := by
  refine Prog.calls_call.mpr ⟨fun _ _ h => (by cases h), fun r => ?_⟩
  cases r with
  | error err =>
      dsimp only
      split
      · refine Prog.calls_call.mpr ⟨fun _ _ h => (by cases h), fun r => ?_⟩
        cases r with
        | error err => exact Prog.calls_ret
        | ok cm => exact Prog.calls_ret
      · exact Prog.calls_ret
  | ok cm =>
      dsimp only
      split
      · refine Prog.calls_call.mpr ⟨fun _ _ h => (by cases h), fun r => ?_⟩
        cases r with
        | error err => exact Prog.calls_ret
        | ok cm' => exact Prog.calls_ret
      · exact Prog.calls_ret

theorem updateStatus_noList (now : Nat) (f : FeatureFlag) (phase : FlagPhase)
    (value : String) (count : Nat) :
    Prog.Calls NoList (updateStatus now f phase value count) := by
  refine Prog.calls_call.mpr ⟨fun _ _ h => (by cases h), fun r => ?_⟩
  cases r with
  | error err => exact Prog.calls_ret
  | ok f' => exact Prog.calls_ret

section
variable [Apimachinery]

/-- A reconcile of an enabled flag with a valid selector lists the Deployments
once, after it has read the flag. -/
theorem reconcile_lists {now : Nat} {req : ObjectKey} {f : FeatureFlag}
    {delivery : EnvVarDelivery} {selector : GoMap String → Bool}
    {s s' : Cluster} {tr : List KubeEvent} {result : Except String Result}
    (hf : s.flags.get? req = some f) (hdis : f.spec.disabled = false)
    (hdel : f.spec.delivery.bind DeliverySpec.envVar = some delivery)
    (hsel : Apimachinery.labelSelectorAsSelector delivery.selector =
      .ok selector)
    (h : Completes CleanStep (reconcile now req) s tr result s') :
    ∃ tr', tr = ⟨.getFlag req, .ok f⟩ ::
        ⟨.listDeployments f.metadata.ns selector, .ok (selected f s)⟩ :: tr' ∧
      ∀ e ∈ tr', NoList e.call := by
  obtain ⟨r, tr', m, rfl, hget, hnext⟩ := completes_call.mp h
  have hm := hget.kubeStep.of_read rfl
  subst hm
  have hr : found (m.flags.get? req) = r := congrArg Prod.fst hget
  rw [hf] at hr
  subst hr
  obtain ⟨spec, hspec, henv⟩ := Option.bind_eq_some_iff.mp hdel
  dsimp only [found] at hnext
  rw [reconcileFlag, hdis, if_neg Bool.false_ne_true, deliver, hspec] at hnext
  dsimp only at hnext
  rw [henv] at hnext
  dsimp only at hnext
  rw [deliverViaEnvVar, hsel] at hnext
  obtain ⟨r, tr', m', rfl, hlist, hrest⟩ := completes_call.mp hnext
  have hr : Except.ok (selected f m) = r := by
    rw [selected_of_selector hdis hdel hsel]
    exact congrArg Prod.fst hlist
  subst hr
  refine ⟨tr', rfl, fun e he => ?_⟩
  obtain ⟨pre, post, rfl⟩ := List.append_of_mem he
  refine hrest.1.call_along (P := fun _ c => NoList c) ?_
  -- what is left: the loop, the ConfigMap and the status
  refine Prog.Calls.bind (P := NoList) ?_ fun r => ?_
  · refine Prog.Calls.bind (updateDeployments_noList _ _ _ _ _) fun r => ?_
    cases r with
    | error err => exact Prog.calls_ret
    | ok targeted =>
        cases hcm : spec.configMap with
        | none => exact Prog.calls_ret
        | some configMap =>
            exact (deliverViaConfigMap_noList f configMap _).map
  · cases r with
    | error err => exact updateStatus_noList now f _ _ _
    | ok targeted => exact updateStatus_noList now f _ _ _

/-! ## After the run -/

variable {now : Nat} {req : ObjectKey} {f : FeatureFlag}
  {delivery : EnvVarDelivery} {selector : GoMap String → Bool}
  {s s' : Cluster} {tr : List KubeEvent} {result : Except String Result}

/-- The flag is still there, with the same declaration. -/
theorem stored_after (hf : s.flags.get? req = some f)
    (h : Completes CleanStep (reconcile now req) s tr result s') :
    ∃ g, s'.flags.get? req = some g ∧ g.metadata.objectKey = req ∧
      g.spec = f.spec ∧ g.status = recorded now f s := by
  obtain ⟨g, hg, hstatus⟩ := reconcile_records hf h
  have hdeclared := (reconcile_clean hf h).declared req
  rw [flagAt, flagAt, hf, hg] at hdeclared
  have hspec : g.declared.spec = f.declared.spec :=
    congrArg FeatureFlag.spec (Option.some.inj hdeclared)
  exact ⟨g, hg, VTable.key_of_get? hg, hspec, hstatus⟩

/-- A Deployment is what the flag asks for, from the one that was there. -/
theorem deployment_after (hf : s.flags.get? req = some f)
    (h : Completes CleanStep (reconcile now req) s tr result s')
    {k : ObjectKey} {d' : Deployment}
    (hd' : s'.deployments.get? k = some d') :
    ∃ d, s.deployments.get? k = some d ∧
      d'.metadata.labels = d.metadata.labels ∧
      d'.template = (desiredDeployment f d).template := by
  have hreach := (reconcile_clean hf h).reach.allDeployments trivial k
  rw [deployAt, hd', Option.map_some, eq_comm, Option.map_eq_some_iff] at hreach
  obtain ⟨c, hc, hdesired⟩ := hreach
  obtain ⟨d, hd, rfl⟩ := Option.map_eq_some_iff.mp hc
  rw [← content_desiredDeployment] at hdesired
  have hlabels := congrArg (fun d => d.metadata.labels) hdesired.symm
  have htemplate := congrArg Deployment.template hdesired.symm
  refine ⟨d, hd, ?_, htemplate⟩
  rw [← metadata_desiredDeployment f d]
  exact hlabels

/-- The API lists the flag for what its selector matches. -/
theorem shown_iff {clusterID q : String} {w : Workload}
    (hnil : Apimachinery.labelSelectorAsSelector none = .ok fun _ => false)
    (hq : AsksAbout q f.metadata.ns) (hf : s.flags.get? req = some f)
    (hdel : f.spec.delivery.bind DeliverySpec.envVar = some delivery)
    (hsel : Apimachinery.labelSelectorAsSelector delivery.selector =
      .ok selector) (hw : w ∈ workloadsIn s f.metadata.ns) :
    Shown clusterID q f.metadata.name s w ↔
      selector w.metadata.labels = true := by
  obtain ⟨managed, hlisted⟩ :=
    listedIn_ns clusterID hq (mem_flaggedNamespaces hf)
  have hmatch : ∀ w' ∈ workloadsIn s f.metadata.ns, f.metadata.name ∈
      (enriched s (discovered clusterID managed w')).matchingFlags ↔
        selector w'.metadata.labels = true := by
    intro w' hw'
    rw [mem_matchingFlags hf clusterID managed (ns_of_mem hw'),
      flagSelector_any hnil hdel hsel]
  constructor
  · rintro ⟨wl, hwl, hkind, hns, hname, hflag⟩
    have hmem : wl ∈ (listedIn clusterID q s).filter
        (·.ns = f.metadata.ns) :=
      List.mem_filter.mpr ⟨hwl, decide_eq_true (hns.trans (ns_of_mem hw))⟩
    rw [hlisted] at hmem
    obtain ⟨w', hw', rfl⟩ := List.mem_map.mp hmem
    obtain rfl := workload_unique hw' hw hkind hname
    exact (hmatch w' hw').mp hflag
  · intro hlabels
    have hmem : enriched s (discovered clusterID managed w) ∈
        (listedIn clusterID q s).filter (·.ns = f.metadata.ns) := by
      rw [hlisted]
      exact List.mem_map_of_mem hw
    exact ⟨_, (List.mem_filter.mp hmem).1, rfl, rfl, rfl,
      (hmatch w hw).mpr hlabels⟩

theorem mem_selected (hdis : f.spec.disabled = false)
    (hdel : f.spec.delivery.bind DeliverySpec.envVar = some delivery)
    (hsel : Apimachinery.labelSelectorAsSelector delivery.selector =
      .ok selector) {d : Deployment} :
    d ∈ selected f s ↔ d ∈ s.deployments.rows.items ∧
      d.metadata.ns = f.metadata.ns ∧ selector d.metadata.labels = true := by
  rw [selected_of_selector hdis hdel hsel, List.mem_filter]
  simp

/-- A run that lists Deployments lists those the flag selects. -/
theorem listed_selected (hf : s.flags.get? req = some f)
    (hdis : f.spec.disabled = false)
    (hdel : f.spec.delivery.bind DeliverySpec.envVar = some delivery)
    (hsel : Apimachinery.labelSelectorAsSelector delivery.selector =
      .ok selector)
    (h : Completes CleanStep (reconcile now req) s tr result s')
    {ns : String} {sel : GoMap String → Bool} {ds : List Deployment}
    (hlist : ⟨.listDeployments ns sel, .ok ds⟩ ∈ tr) : ds = selected f s := by
  obtain ⟨tr', rfl, hrest⟩ := reconcile_lists hf hdis hdel hsel h
  rcases List.mem_cons.mp hlist with hget | hlist
  · cases hget
  · rcases List.mem_cons.mp hlist with hlist | hlist
    · cases hlist
      rfl
    · exact absurd rfl (hrest _ hlist ns sel)

/-- A Deployment of the namespace was there before the run; if the selector
matches it, it has the env var after the run. -/
theorem deployment_carries {w : Workload} (hf : s.flags.get? req = some f)
    (hdis : f.spec.disabled = false)
    (hdel : f.spec.delivery.bind DeliverySpec.envVar = some delivery)
    (hsel : Apimachinery.labelSelectorAsSelector delivery.selector =
      .ok selector)
    (h : Completes CleanStep (reconcile now req) s tr result s')
    (hw : w ∈ workloadsIn s' f.metadata.ns) (hkind : w.kind = "Deployment") :
    ∃ d, s.deployments.get? w.metadata.objectKey = some d ∧
      w.metadata.labels = d.metadata.labels ∧
      (selector w.metadata.labels = true → ∀ c ∈ w.template.containers,
        firstValue (envVarName f delivery) c.env =
          some f.spec.defaultValue) := by
  rcases mem_workloadsIn.mp hw with ⟨d', hd', hns, rfl⟩ | ⟨d', _, _, rfl⟩ |
    ⟨d', _, _, rfl⟩
  · obtain ⟨d, hd, hlabels, htemplate⟩ :=
      deployment_after hf h (Table.get?_of_mem hd')
    have hkey : d.metadata.objectKey = d'.metadata.objectKey :=
      VTable.key_of_get? hd
    have hdns : d.metadata.ns = f.metadata.ns :=
      (congrArg ObjectKey.ns hkey).trans hns
    refine ⟨d, hd, hlabels, fun hlab c hc => ?_⟩
    have hlab' : selector d.metadata.labels = true := hlabels ▸ hlab
    rw [desiredDeployment_of_selects (envTarget_of_selector hdis hdel hsel)
      (by simp [hdns, hlab'])] at htemplate
    have hc' : c ∈ d'.template.containers := hc
    rw [htemplate] at hc'
    exact hasEnv_injected _ _ _ d c hc'
  · simp [ofStatefulSet] at hkind
  · simp [ofDaemonSet] at hkind

/-- The operator delivers to the Deployments its selector matches. -/
theorem delivered_iff {w : Workload} (hf : s.flags.get? req = some f)
    (hdis : f.spec.disabled = false)
    (hdel : f.spec.delivery.bind DeliverySpec.envVar = some delivery)
    (hsel : Apimachinery.labelSelectorAsSelector delivery.selector =
      .ok selector)
    (h : Completes CleanStep (reconcile now req) s tr result s')
    (hw : w ∈ workloadsIn s' f.metadata.ns) :
    Delivered tr (envVarName f delivery) f.spec.defaultValue w ↔
      w.kind = "Deployment" ∧ selector w.metadata.labels = true := by
  constructor
  · rintro ⟨⟨hkind, ns, sel, ds, hlist, d₀, hd₀, hkey⟩, _⟩
    obtain ⟨d, hd, hlabels, _⟩ :=
      deployment_carries hf hdis hdel hsel h hw hkind
    obtain rfl := listed_selected hf hdis hdel hsel h hlist
    obtain ⟨hmem, _, hsel₀⟩ := (mem_selected hdis hdel hsel).mp hd₀
    have hd₀' : s.deployments.get? d₀.metadata.objectKey = some d₀ :=
      Table.get?_of_mem hmem
    rw [hkey, hd] at hd₀'
    obtain rfl := Option.some.inj hd₀'
    exact ⟨hkind, hlabels ▸ hsel₀⟩
  · rintro ⟨hkind, hlab⟩
    obtain ⟨d, hd, hlabels, hcarries⟩ :=
      deployment_carries hf hdis hdel hsel h hw hkind
    have hkey : d.metadata.objectKey = w.metadata.objectKey :=
      VTable.key_of_get? hd
    have hdns : d.metadata.ns = f.metadata.ns :=
      (congrArg ObjectKey.ns hkey).trans (ns_of_mem hw)
    have hmem : d ∈ selected f s := (mem_selected hdis hdel hsel).mpr
      ⟨Table.mem_of_get? hd, hdns, hlabels ▸ hlab⟩
    obtain ⟨tr', htr, _⟩ := reconcile_lists hf hdis hdel hsel h
    exact ⟨⟨hkind, f.metadata.ns, selector, selected f s, by simp [htr], d,
      hmem, hkey⟩, hcarries hlab⟩

/-- The API lists the flag as often as its selector matches. -/
theorem length_listed (clusterID : String) {q : String}
    (hnil : Apimachinery.labelSelectorAsSelector none = .ok fun _ => false)
    (hq : AsksAbout q f.metadata.ns) (hf : s.flags.get? req = some f)
    (hdel : f.spec.delivery.bind DeliverySpec.envVar = some delivery)
    (hsel : Apimachinery.labelSelectorAsSelector delivery.selector =
      .ok selector) :
    ((listedIn clusterID q s).filter fun wl =>
        wl.ns = f.metadata.ns ∧ f.metadata.name ∈ wl.matchingFlags).length =
      ((workloadsIn s f.metadata.ns).filter fun w =>
        selector w.metadata.labels).length := by
  obtain ⟨managed, hlisted⟩ :=
    listedIn_ns clusterID hq (mem_flaggedNamespaces hf)
  have hsplit : ((listedIn clusterID q s).filter fun wl =>
        wl.ns = f.metadata.ns ∧ f.metadata.name ∈ wl.matchingFlags) =
      ((listedIn clusterID q s).filter (·.ns = f.metadata.ns)).filter
        fun wl => f.metadata.name ∈ wl.matchingFlags := by
    rw [List.filter_filter]
    refine List.filter_congr fun wl _ => ?_
    simp [Bool.and_comm]
  rw [hsplit, hlisted, List.filter_map, List.length_map]
  congr 1
  refine List.filter_congr fun w hw => ?_
  have hiff := mem_matchingFlags hf clusterID managed (ns_of_mem hw)
  rw [flagSelector_any hnil hdel hsel] at hiff
  rw [Function.comp_apply, decide_eq_decide.mpr hiff, Bool.decide_coe]

/-- When nothing but Deployments is matched, that is what the operator counts. -/
theorem length_matched (hdis : f.spec.disabled = false)
    (hdel : f.spec.delivery.bind DeliverySpec.envVar = some delivery)
    (hsel : Apimachinery.labelSelectorAsSelector delivery.selector =
      .ok selector)
    (honly : ∀ w ∈ workloadsIn s f.metadata.ns, w.kind ≠ "Deployment" →
      selector w.metadata.labels = false) :
    ((workloadsIn s f.metadata.ns).filter fun w =>
      selector w.metadata.labels).length = targets f s := by
  have hnone : ∀ ws : List Workload,
      (∀ w ∈ ws, w ∈ workloadsIn s f.metadata.ns ∧ w.kind ≠ "Deployment") →
      ws.filter (fun w => selector w.metadata.labels) = [] := by
    intro ws hws
    rw [List.filter_eq_nil_iff]
    intro w hw
    rw [honly w (hws w hw).1 (hws w hw).2]
    exact Bool.false_ne_true
  have hstateful := hnone ((s.statefulSets.rows.items.filter fun d =>
      d.metadata.ns = f.metadata.ns).map ofStatefulSet) fun w hw =>
    ⟨by simp only [workloadsIn, List.mem_append, hw, true_or, or_true], by
      obtain ⟨d, _, rfl⟩ := List.mem_map.mp hw
      simp [ofStatefulSet]⟩
  have hdaemon := hnone ((s.daemonSets.rows.items.filter fun d =>
      d.metadata.ns = f.metadata.ns).map ofDaemonSet) fun w hw =>
    ⟨by simp only [workloadsIn, List.mem_append, hw, or_true], by
      obtain ⟨d, _, rfl⟩ := List.mem_map.mp hw
      simp [ofDaemonSet]⟩
  rw [workloadsIn, List.filter_append, List.filter_append, hstateful, hdaemon,
    List.append_nil, List.append_nil, List.filter_map, List.length_map,
    List.filter_filter, targets, selected_of_selector hdis hdel hsel]
  congr 1
  refine List.filter_congr fun d _ => ?_
  simp [ofDeployment, Bool.and_comm]

/-- After a reconcile in which no call failed the operator and the API agree
exactly if the selector matches no StatefulSet and no DaemonSet of the
namespace. -/
theorem targeting_agrees_iff {clusterID q : String}
    (hnil : Apimachinery.labelSelectorAsSelector none = .ok fun _ => false)
    (hq : AsksAbout q f.metadata.ns) (hf : s.flags.get? req = some f)
    (hdis : f.spec.disabled = false)
    (hdel : f.spec.delivery.bind DeliverySpec.envVar = some delivery)
    (hsel : Apimachinery.labelSelectorAsSelector delivery.selector =
      .ok selector)
    (h : Completes CleanStep (reconcile now req) s tr result s') :
    TargetingAgrees clusterID q f delivery tr s' ↔
      ∀ w ∈ workloadsIn s f.metadata.ns, w.kind ≠ "Deployment" →
        selector w.metadata.labels = false := by
  obtain ⟨g, hg, hgkey, hspec, hstatus⟩ := stored_after hf h
  have hkey : f.metadata.objectKey = req := VTable.key_of_get? hf
  have hns : g.metadata.ns = f.metadata.ns :=
    congrArg ObjectKey.ns (hgkey.trans hkey.symm)
  have hname : g.metadata.name = f.metadata.name :=
    congrArg ObjectKey.name (hgkey.trans hkey.symm)
  have hkeeps := run_keepsOthers h.2
  -- the API reads the flag as it is stored now
  have hq' : AsksAbout q g.metadata.ns := hns ▸ hq
  have hdel' : g.spec.delivery.bind DeliverySpec.envVar = some delivery :=
    hspec ▸ hdel
  have hshown : ∀ w ∈ workloadsIn s' f.metadata.ns,
      Shown clusterID q f.metadata.name s' w ↔
        selector w.metadata.labels = true := by
    intro w hw
    rw [← hname]
    exact shown_iff hnil hq' hg hdel' hsel (hns ▸ hw)
  have hiff : ∀ w ∈ workloadsIn s' f.metadata.ns,
      (Shown clusterID q f.metadata.name s' w ↔
        Delivered tr (envVarName f delivery) f.spec.defaultValue w) ↔
      (w.kind ≠ "Deployment" → selector w.metadata.labels = false) := by
    intro w hw
    rw [hshown w hw, delivered_iff hf hdis hdel hsel h hw]
    by_cases hkind : w.kind = "Deployment"
    · simp [hkind]
    · simp [hkind]
  constructor
  · intro hagrees w hw hkind
    have hw' := (mem_workloadsIn_of_keepsOthers hkeeps hkind).mpr hw
    exact (hiff w hw').mp (hagrees.workloads w hw') hkind
  · intro honly
    have honly' : ∀ w ∈ workloadsIn s' f.metadata.ns,
        w.kind ≠ "Deployment" → selector w.metadata.labels = false :=
      fun w hw hkind =>
        honly w ((mem_workloadsIn_of_keepsOthers hkeeps hkind).mp hw) hkind
    refine ⟨fun w hw => (hiff w hw).mpr (honly' w hw), g, hkey ▸ hg, ?_⟩
    have hlisted := length_listed clusterID hnil hq' hg hdel' hsel
    rw [hns, hname] at hlisted
    have htargets : targets f s' = targets f s :=
      targets_congr (reconcile_clean hf h).reach.metadata
    have hfails : envFails f = false := by simp [envFails, hdel, hsel]
    rw [hlisted, length_matched hdis hdel hsel honly', htargets, hstatus,
      recorded, hdis, if_neg Bool.false_ne_true, hfails,
      if_neg Bool.false_ne_true]
    rfl

end

/-! One Deployment, and one StatefulSet with the same label or another. -/

def webDelivery : EnvVarDelivery := { selector := some (sampleSelector "web") }

def webFlag : FeatureFlag := sampleFlag { envVar := some webDelivery }

def databaseSet (app : String) : StatefulSet where
  metadata := { name := "db", ns := "default", labels := GoMap.single "app" app }
  template := { containers := [{ name := "main" }] }

def targetCluster (app : String) : Cluster where
  flags := VTable.empty.write webFlag
  deployments := VTable.empty.write (sampleDeployment "web" "web" [])
  statefulSets := VTable.empty.write (databaseSet app)

/-- The StatefulSet is shown as targeted, and was not reached. -/
theorem stateful_set_only_shown :
    letI := labelSelectors
    let run := (reconcile 7 ⟨"default", "dark-mode"⟩).exec KubeCall.serve
      (targetCluster "web")
    ¬ TargetingAgrees "prod" "default" (VTable.empty.stamp webFlag) webDelivery
      run.1 run.2.2 := by
  let := labelSelectors
  intro run h
  let w := ofStatefulSet (VTable.empty.stamp (databaseSet "web"))
  have hw : w ∈ workloadsIn run.2.2 "default" := by decide +kernel
  have hshown : Shown "prod" "default" "dark-mode" run.2.2 w := by
    unfold Shown
    decide +kernel
  have hkind := ((h.workloads w hw).mp hshown).reached.1
  exact absurd hkind (by decide)

theorem targeting_agrees_iff_sample :
    letI := labelSelectors
    let run := (reconcile 7 ⟨"default", "dark-mode"⟩).exec KubeCall.serve
      (targetCluster "db")
    TargetingAgrees "prod" "default" (VTable.empty.stamp webFlag) webDelivery
      run.1 run.2.2 :=
  letI := labelSelectors
  (targeting_agrees_iff (f := VTable.empty.stamp webFlag) rfl (.inl rfl) rfl rfl
    rfl rfl (Prog.exec_completes KubeCall.serve _ (targetCluster "db"))).mpr
    (by decide +kernel)

end Vexil.Server
