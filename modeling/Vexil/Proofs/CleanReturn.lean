import Vexil.Operator.Outcome
import Vexil.Proofs.Retry

/-!
# What a clean return means

A `Reconcile` that returns neither an error nor a request to come back says
that there is nothing left to do. It may be wrong in two ways. The ConfigMap
half reads the key from a map, where a missing key and an empty value look the
same, so an empty value is not written into a ConfigMap that does not have the
key. And an error of either half is not returned: it becomes a `Failed` status,
and if that status is written the return is clean.

So a clean return means delivered exactly when nothing was lost on the way, or
when what was lost had been there before.
-/

namespace Vexil.Operator

open Vexil.Lib Vexil.Kube

/-! ## The ConfigMap -/

/-- The ConfigMap is there and has the value under the key, and its other keys
are as before. -/
structure ConfigMapPost (k : ObjectKey) (key value : String) (s s' : Cluster) :
    Prop where
  there : configMapAt s' k ≠ none
  value : valueAt s' k key = some value
  others : ∀ other, other ≠ key → valueAt s' k other = valueAt s k other

theorem configMapAt_of_value {k : ObjectKey} {key value : String} {s : Cluster}
    (h : valueAt s k key = some value) : configMapAt s k ≠ none := by
  intro hnone
  rw [valueAt, hnone] at h
  cases h

/-- A ConfigMap delivery that returns no error did what it is for if and only
if the value was not empty, the ConfigMap was not there, or it had the key. -/
theorem configMap_post_iff {f : FeatureFlag} {delivery : ConfigMapDelivery}
    {value : String} {s s' : Cluster} {tr : List KubeEvent}
    (h : Completes KubeStep (deliverViaConfigMap f delivery value) s tr
      (.ok ()) s') :
    let k : ObjectKey := ⟨f.metadata.ns, delivery.configMapName⟩
    ConfigMapPost k delivery.key value s s' ↔
      ¬ (value = "" ∧ configMapAt s k ≠ none ∧
        valueAt s k delivery.key = none) := by
  intro k
  have hdelivers := (configMap_ok h).2
  constructor
  · intro hpost
    exact hdelivers.has.mp hpost.value
  · intro hmissed
    have hvalue := hdelivers.has.mpr hmissed
    exact ⟨configMapAt_of_value hvalue, hvalue, hdelivers.others⟩

/-! A ConfigMap without data, and a flag of type string whose value is empty. -/

def bannerFlag : FeatureFlag :=
  { sampleFlag { configMap := some ⟨"settings", "banner", none⟩ } with
    spec := {
      type := .string
      defaultValue := ""
      delivery := some { configMap := some ⟨"settings", "banner", none⟩ } } }

def bareCluster : Cluster where
  flags := VTable.empty.write bannerFlag
  configMaps := VTable.empty.write {
    metadata := { name := "settings", ns := "default" } }

theorem configMap_post_iff_sample :
    let run := (deliverViaConfigMap bannerFlag ⟨"settings", "banner", none⟩
      "hello").exec KubeCall.serve bareCluster
    run.2.1 = .ok () ∧
      ConfigMapPost ⟨"default", "settings"⟩ "banner" "hello" bareCluster
        run.2.2 := by
  have hrun := Prog.exec_completes KubeCall.serve (deliverViaConfigMap
    bannerFlag ⟨"settings", "banner", none⟩ "hello") bareCluster
  have hok : ((deliverViaConfigMap bannerFlag ⟨"settings", "banner", none⟩
      "hello").exec KubeCall.serve bareCluster).2.1 = .ok () := by decide
  rw [hok] at hrun
  exact ⟨hok, (configMap_post_iff (hrun.mono fun _ _ _ => CleanStep.kubeStep)
    ).mpr (by decide)⟩

theorem empty_value_not_written :
    let run := (deliverViaConfigMap bannerFlag ⟨"settings", "banner", none⟩
      "").exec KubeCall.serve bareCluster
    run.2.1 = .ok () ∧
      ¬ ConfigMapPost ⟨"default", "settings"⟩ "banner" "" bareCluster
        run.2.2 :=
  ⟨by decide, fun hpost => absurd hpost.value (by decide)⟩

/-! ## The two halves of the delivery -/

/-- A call about Deployments. -/
def onDeployments : KubeCall → Bool
  | .listDeployments _ _ | .updateDeployment _ => true
  | _ => false

/-- A call about ConfigMaps. -/
def onConfigMaps : KubeCall → Bool
  | .getConfigMap _ | .createConfigMap _ | .updateConfigMap _ => true
  | _ => false

/-- A call about flags. -/
def onFlags : KubeCall → Bool
  | .getFlag _ | .updateFlagStatus _ => true
  | _ => false

theorem onDeployments_only {c : KubeCall} (h : onDeployments c = true) :
    onFlags c = false ∧ onConfigMaps c = false := by
  cases c <;> first | exact ⟨rfl, rfl⟩ | cases h

theorem onConfigMaps_only {c : KubeCall} (h : onConfigMaps c = true) :
    onFlags c = false ∧ onDeployments c = false := by
  cases c <;> first | exact ⟨rfl, rfl⟩ | cases h

theorem onFlags_only {c : KubeCall} (h : onFlags c = true) :
    onDeployments c = false ∧ onConfigMaps c = false := by
  cases c <;> first | exact ⟨rfl, rfl⟩ | cases h

/-- A call of the kind was lost. -/
def LostIn (kind : KubeCall → Bool) (tr : List KubeEvent) : Prop :=
  ∃ e ∈ tr, kind e.call = true ∧ Lost e

theorem lostIn_append {kind : KubeCall → Bool} {tr tr' : List KubeEvent} :
    LostIn kind (tr ++ tr') ↔ LostIn kind tr ∨ LostIn kind tr' := by
  unfold LostIn
  simp only [List.mem_append, or_and_right, exists_or]

/-- In a trace of calls of one kind. -/
theorem lostIn_self {kind : KubeCall → Bool} {tr : List KubeEvent}
    (h : ∀ e ∈ tr, kind e.call = true) : LostIn kind tr ↔ ∃ e ∈ tr, Lost e := by
  constructor
  · rintro ⟨e, he, _, hlost⟩
    exact ⟨e, he, hlost⟩
  · rintro ⟨e, he, hlost⟩
    exact ⟨e, he, h e he, hlost⟩

theorem not_lostIn {kind : KubeCall → Bool} {tr : List KubeEvent}
    (h : ∀ e ∈ tr, kind e.call = false) : ¬ LostIn kind tr := by
  rintro ⟨e, he, hkind, _⟩
  rw [h e he] at hkind
  cases hkind

theorem not_lostIn_of_reached {kind : KubeCall → Bool} {tr : List KubeEvent}
    (h : ∀ e ∈ tr, ¬ Lost e) : ¬ LostIn kind tr := by
  rintro ⟨e, he, _, hlost⟩
  exact h e he hlost

theorem calls_updateDeployments (flagName envName value : String)
    (ds : List Deployment) (count : Nat) :
    (updateDeployments flagName envName value ds count).Calls
      fun c => onDeployments c = true := by
  induction ds generalizing count with
  | nil => exact Prog.calls_ret
  | cons d ds ih =>
      rw [updateDeployments]
      split
      · refine Prog.calls_call.mpr ⟨rfl, fun r => ?_⟩
        cases r with
        | error err => exact Prog.calls_ret
        | ok d' => exact ih _
      · exact ih _

theorem calls_deliverViaConfigMap (f : FeatureFlag)
    (delivery : ConfigMapDelivery) (value : String) :
    (deliverViaConfigMap f delivery value).Calls
      fun c => onConfigMaps c = true := by
  refine Prog.calls_call.mpr ⟨rfl, fun r => ?_⟩
  cases r with
  | error err =>
      dsimp only
      split
      · refine Prog.calls_call.mpr ⟨rfl, fun r => ?_⟩
        cases r with
        | error err' => exact Prog.calls_ret
        | ok cm => exact Prog.calls_ret
      · exact Prog.calls_ret
  | ok cm =>
      dsimp only
      split
      · refine Prog.calls_call.mpr ⟨rfl, fun r => ?_⟩
        cases r with
        | error err => exact Prog.calls_ret
        | ok cm' => exact Prog.calls_ret
      · exact Prog.calls_ret

section
variable [Apimachinery]

theorem calls_deliverViaEnvVar (f : FeatureFlag) (delivery : EnvVarDelivery)
    (value : String) : (deliverViaEnvVar f delivery value).Calls
      fun c => onDeployments c = true := by
  unfold deliverViaEnvVar
  split
  · exact Prog.calls_ret
  · refine Prog.calls_call.mpr ⟨rfl, fun r => ?_⟩
    cases r with
    | error err => exact Prog.calls_ret
    | ok ds => exact calls_updateDeployments _ _ _ ds 0

/-! ## What is delivered -/

/-- Every Deployment that the flag's selector matches carries its value in the
variable, in every container. -/
def EnvDelivered (f : FeatureFlag) (s : Cluster) : Prop :=
  ∀ t ∈ envDelivery f, AllHave t.selects t.envName f.spec.defaultValue s

instance (f : FeatureFlag) (s : Cluster) :
    Decidable (EnvDelivered f s) :=
  inferInstanceAs (Decidable (∀ t ∈ envDelivery f,
    AllHave t.selects t.envName f.spec.defaultValue s))

/-- The flag's ConfigMap has its value under its key. -/
def ConfigMapDelivered (f : FeatureFlag) (s : Cluster) : Prop :=
  ∀ delivery ∈ f.spec.delivery.bind DeliverySpec.configMap,
    valueAt s ⟨f.metadata.ns, delivery.configMapName⟩ delivery.key =
      some f.spec.defaultValue

omit [Apimachinery] in
instance (f : FeatureFlag) (s : Cluster) :
    Decidable (ConfigMapDelivered f s) :=
  inferInstanceAs (Decidable
    (∀ delivery ∈ f.spec.delivery.bind DeliverySpec.configMap,
      valueAt s ⟨f.metadata.ns, delivery.configMapName⟩ delivery.key =
        some f.spec.defaultValue))

/-- The value is empty and the flag's ConfigMap does not have the key. -/
def MissesKey (f : FeatureFlag) (s : Cluster) : Prop :=
  ∃ delivery ∈ f.spec.delivery.bind DeliverySpec.configMap,
    KeyMissed ⟨f.metadata.ns, delivery.configMapName⟩ delivery.key
      f.spec.defaultValue s

omit [Apimachinery] in
theorem allHave_of_injected {ns flagName envName value : String}
    {selector : GoMap String → Bool} {s s' : Cluster}
    (h : ∀ k, deployAt s' k = (deployAt s k).map (injectedIf
      (fun d => d.metadata.ns = ns ∧ selector d.metadata.labels) flagName
      envName value)) :
    AllHave (fun d => d.metadata.ns = ns ∧ selector d.metadata.labels) envName
      value s' := by
  intro d hd hsel c hc
  obtain ⟨hns, hsel⟩ := of_decide_eq_true hsel
  obtain ⟨d₀, _, hcontent⟩ := stored_before h hd
  obtain ⟨hns₀, hlabels₀, hcontainers⟩ := content_injectedIf hcontent
  rw [hcontainers (hns₀ ▸ hns) (hlabels₀ ▸ hsel)] at hc
  obtain ⟨c₀, _, rfl⟩ := List.mem_map.mp hc
  exact firstValue_injectContainer envName value c₀

theorem envDelivered_of_none {f : FeatureFlag} {s : Cluster}
    (h : envDelivery f = none) : EnvDelivered f s := by
  intro t ht
  rw [h] at ht
  cases ht

/-! ## How the halves end -/

/-- The half about Deployments, with the answer it goes on with. -/
structure EnvHalf (f : FeatureFlag) (s : Cluster) (tr : List KubeEvent)
    (r : Except String Nat) (s' : Cluster) : Prop where
  calls : ∀ e ∈ tr, onDeployments e.call = true
  rest : s' = { s with deployments := s'.deployments }
  delivered : EnvDelivered f s' ↔
    EnvDelivered f s ∨ ¬ LostIn onDeployments tr
  ok : (∃ n, r = .ok n) ↔ envFails f = false ∧ ¬ LostIn onDeployments tr

theorem envHalf_of_none {f : FeatureFlag} {s : Cluster} {n : Nat}
    (hdel : f.spec.delivery.bind DeliverySpec.envVar = none) :
    EnvHalf f s [] (.ok n) s := by
  have hnone : envDelivery f = none := by simp only [envDelivery, hdel]
  have hfails : envFails f = false := by simp only [envFails, hdel]
  have hlost : ¬ LostIn onDeployments [] :=
    not_lostIn_of_reached (List.forall_mem_nil _)
  refine ⟨List.forall_mem_nil _, rfl, ?_, ?_⟩
  · exact iff_of_true (envDelivered_of_none hnone) (.inr hlost)
  · exact iff_of_true ⟨n, rfl⟩ ⟨hfails, hlost⟩

theorem envHalf_of_some {f : FeatureFlag} {delivery : EnvVarDelivery}
    {s s' : Cluster} {tr : List KubeEvent} {r : Except String Nat}
    (hdel : f.spec.delivery.bind DeliverySpec.envVar = some delivery)
    (h : Completes KubeStep (deliverViaEnvVar f delivery f.spec.defaultValue) s
      tr r s') : EnvHalf f s tr r s' := by
  have hcalls := h.1.calls (calls_deliverViaEnvVar f delivery _)
  cases hsel : Apimachinery.labelSelectorAsSelector delivery.selector with
  | error err =>
      have hnone : envDelivery f = none := by
        simp only [envDelivery, hdel, hsel]
      have hfails : envFails f = true := by simp only [envFails, hdel, hsel]
      rw [deliverViaEnvVar, hsel] at h
      obtain ⟨rfl, rfl, rfl⟩ := completes_ret.mp h
      refine ⟨hcalls, rfl, ?_, iff_of_false ?_ ?_⟩
      · exact iff_of_true (envDelivered_of_none hnone)
          (.inl (envDelivered_of_none hnone))
      · rintro ⟨n, hn⟩
        cases hn
      · rw [hfails]
        exact fun hno => Bool.noConfusion hno.1
  | ok selector =>
      have hsome : envDelivery f = some ⟨envVarName f delivery, fun d =>
          d.metadata.ns = f.metadata.ns ∧ selector d.metadata.labels⟩ := by
        simp only [envDelivery, hdel, hsel]
      have hfails : envFails f = false := by simp only [envFails, hdel, hsel]
      have hiff : ∀ s, EnvDelivered f s ↔ AllHave (fun d =>
          d.metadata.ns = f.metadata.ns ∧ selector d.metadata.labels)
          (envVarName f delivery) f.spec.defaultValue s := by
        intro s
        rw [EnvDelivered, hsome]
        simp
      cases r with
      | ok n =>
          obtain ⟨hlost, hrest, hall⟩ := envVar_ok hsel h
          have hnot : ¬ LostIn onDeployments tr := not_lostIn_of_reached hlost
          refine ⟨hcalls, hrest, ?_, iff_of_true ⟨n, rfl⟩ ⟨hfails, hnot⟩⟩
          rw [hiff]
          exact iff_of_true (allHave_of_injected hall) (.inr hnot)
      | error err =>
          obtain ⟨hlost, hrest, hall⟩ := envVar_error hsel h
          have hlost' := (lostIn_self hcalls).mpr hlost
          refine ⟨hcalls, hrest, ?_, iff_of_false ?_ fun hno =>
            hno.2 hlost'⟩
          · rw [hiff, hiff, hall]
            exact (or_iff_left (not_not.mpr hlost')).symm
          · rintro ⟨n, hn⟩
            cases hn

omit [Apimachinery] in
/-- The half about the ConfigMap. -/
structure ConfigMapHalf (f : FeatureFlag) (s : Cluster) (tr : List KubeEvent)
    (s' : Cluster) : Prop where
  calls : ∀ e ∈ tr, onConfigMaps e.call = true
  rest : s' = { s with configMaps := s'.configMaps }
  delivered : ConfigMapDelivered f s' ↔ ConfigMapDelivered f s ∨
    ¬ LostIn onConfigMaps tr ∧ ¬ MissesKey f s

omit [Apimachinery] in
theorem configMapHalf_of_none {f : FeatureFlag} {s : Cluster}
    (hdel : f.spec.delivery.bind DeliverySpec.configMap = none) :
    ConfigMapHalf f s [] s := by
  have hnone : ConfigMapDelivered f s := by
    intro delivery hdelivery
    rw [hdel] at hdelivery
    cases hdelivery
  exact ⟨List.forall_mem_nil _, rfl, iff_of_true hnone (.inl hnone)⟩

omit [Apimachinery] in
theorem configMapHalf_of_some {f : FeatureFlag} {delivery : ConfigMapDelivery}
    {s s' : Cluster} {tr : List KubeEvent} {r : Except String Unit}
    (hdel : f.spec.delivery.bind DeliverySpec.configMap = some delivery)
    (h : Completes KubeStep
      (deliverViaConfigMap f delivery f.spec.defaultValue) s tr r s') :
    ConfigMapHalf f s tr s' := by
  have hcalls := h.1.calls (calls_deliverViaConfigMap f delivery _)
  have hiff : ∀ s, ConfigMapDelivered f s ↔
      valueAt s ⟨f.metadata.ns, delivery.configMapName⟩ delivery.key =
        some f.spec.defaultValue := by
    intro s
    rw [ConfigMapDelivered, hdel]
    simp
  have hmisses : MissesKey f s ↔ KeyMissed
      ⟨f.metadata.ns, delivery.configMapName⟩ delivery.key
      f.spec.defaultValue s := by
    rw [MissesKey, hdel]
    simp
  cases r with
  | ok u =>
      obtain ⟨hlost, hdelivers⟩ := configMap_ok h
      have hnot : ¬ LostIn onConfigMaps tr := not_lostIn_of_reached hlost
      refine ⟨hcalls, hdelivers.rest, ?_⟩
      rw [hiff, hiff, hmisses, hdelivers.has]
      refine ⟨fun hno => .inr ⟨hnot, hno⟩, ?_⟩
      rintro (hvalue | ⟨_, hno⟩)
      · rintro ⟨_, _, hnone⟩
        rw [hnone] at hvalue
        cases hvalue
      · exact hno
  | error err =>
      obtain ⟨hlost, rfl⟩ := configMap_error h
      have hlost' := (lostIn_self hcalls).mpr hlost
      exact ⟨hcalls, rfl, (or_iff_left fun hno => hno.1 hlost').symm⟩

/-! ## The delivery -/

/-- The flag will be delivered, or is already: the calls about Deployments are
not lost, or the Deployments have the value; the calls about the ConfigMap are
reached and not lost, and the key is not missed, or the ConfigMap has the
value. -/
def Delivers (f : FeatureFlag) (s : Cluster) (tr : List KubeEvent) : Prop :=
  (EnvDelivered f s ∨ ¬ LostIn onDeployments tr) ∧
  (ConfigMapDelivered f s ∨ envFails f = false ∧
    ¬ LostIn onDeployments tr ∧ ¬ LostIn onConfigMaps tr ∧ ¬ MissesKey f s)

/-- What the delivery leaves, and that it does not touch a flag. -/
structure DeliverEnds (f : FeatureFlag) (s : Cluster) (tr : List KubeEvent)
    (s' : Cluster) : Prop where
  calls : ∀ e ∈ tr, onFlags e.call = false
  flags : s'.flags = s.flags
  delivered : EnvDelivered f s' ∧ ConfigMapDelivered f s' ↔ Delivers f s tr

theorem envDelivered_congr {f : FeatureFlag} {s s' : Cluster}
    (h : s'.deployments = s.deployments) :
    EnvDelivered f s' ↔ EnvDelivered f s := by
  unfold EnvDelivered AllHave
  rw [h]

omit [Apimachinery] in
theorem configMaps_congr {f : FeatureFlag} {s s' : Cluster}
    (h : s'.configMaps = s.configMaps) :
    (ConfigMapDelivered f s' ↔ ConfigMapDelivered f s) ∧
      (MissesKey f s' ↔ MissesKey f s) := by
  unfold ConfigMapDelivered MissesKey KeyMissed valueAt configMapAt
  rw [h]
  exact ⟨Iff.rfl, Iff.rfl⟩

/-- After an error the ConfigMap is not reached. -/
theorem EnvHalf.ends_of_error {f : FeatureFlag} {s s' : Cluster}
    {tr : List KubeEvent} {err : String} (h : EnvHalf f s tr (.error err) s') :
    DeliverEnds f s tr s' := by
  have hnotReached : ¬ (envFails f = false ∧ ¬ LostIn onDeployments tr) := by
    rw [← h.ok]
    rintro ⟨n, hn⟩
    cases hn
  have hcm : s'.configMaps = s.configMaps := by rw [h.rest]
  refine ⟨fun e he => (onDeployments_only (h.calls e he)).1, by rw [h.rest], ?_⟩
  rw [h.delivered, (configMaps_congr hcm).1]
  refine and_congr_right fun _ => (or_iff_left fun hno => ?_).symm
  exact hnotReached ⟨hno.1, hno.2.1⟩

theorem EnvHalf.ends {f : FeatureFlag} {s m s' : Cluster}
    {tr₁ tr₂ : List KubeEvent} {n : Nat} (h₁ : EnvHalf f s tr₁ (.ok n) m)
    (h₂ : ConfigMapHalf f m tr₂ s') : DeliverEnds f s (tr₁ ++ tr₂) s' := by
  obtain ⟨hfails, hlost₁⟩ := h₁.ok.mp ⟨n, rfl⟩
  have hcm : m.configMaps = s.configMaps := by rw [h₁.rest]
  have hdep : s'.deployments = m.deployments := by rw [h₂.rest]
  have hlost₂ : ¬ LostIn onDeployments tr₂ :=
    not_lostIn fun e he => (onConfigMaps_only (h₂.calls e he)).2
  have hlost₁' : ¬ LostIn onConfigMaps tr₁ :=
    not_lostIn fun e he => (onDeployments_only (h₁.calls e he)).2
  have hboth : ¬ LostIn onDeployments (tr₁ ++ tr₂) := by
    rw [lostIn_append]
    exact fun h => h.elim hlost₁ hlost₂
  have hmaps : LostIn onConfigMaps (tr₁ ++ tr₂) ↔ LostIn onConfigMaps tr₂ := by
    rw [lostIn_append]
    exact or_iff_right hlost₁'
  refine ⟨fun e he => ?_, by rw [h₂.rest, h₁.rest], ?_⟩
  · rcases List.mem_append.mp he with he | he
    · exact (onDeployments_only (h₁.calls e he)).1
    · exact (onConfigMaps_only (h₂.calls e he)).1
  · rw [envDelivered_congr hdep, h₁.delivered, h₂.delivered,
      (configMaps_congr hcm).1, (configMaps_congr hcm).2, Delivers, hmaps]
    simp only [hfails, hlost₁, hboth, not_false_eq_true, or_true, true_and]

theorem deliver_ends {f : FeatureFlag} {s s' : Cluster} {tr : List KubeEvent}
    {r : Except String Nat}
    (h : Completes KubeStep (deliver f f.spec.defaultValue) s tr r s') :
    DeliverEnds f s tr s' := by
  have henv : ∀ {tr m r}, EnvHalfRun KubeStep f f.spec.defaultValue s tr r m →
      EnvHalf f s tr r m := by
    intro tr m r hhalf
    cases hhalf with
    | absent hno => exact envHalf_of_none hno
    | asked hdel hrun => exact envHalf_of_some hdel hrun
  cases deliver_cases h with
  | envFailed hhalf => exact (henv hhalf).ends_of_error
  | reached hhalf hcm =>
      refine (henv hhalf).ends ?_
      cases hcm with
      | absent hno => exact configMapHalf_of_none hno
      | asked hdel hrun => exact configMapHalf_of_some hdel hrun

/-! ## The whole reconcile -/

omit [Apimachinery] in
/-- The status write of a flag that is stored as it was read is refused only by
losing the call. -/
theorem updateStatus_ends {now : Nat} {f : FeatureFlag} {phase : FlagPhase}
    {value : String} {count : Nat} {s s' : Cluster} {tr : List KubeEvent}
    {result : Except String Result}
    (hf : s.flags.get? f.metadata.objectKey = some f)
    (h : Completes KubeStep (updateStatus now f phase value count) s tr result
      s') :
    s' = { s with flags := s'.flags } ∧
      (∀ e ∈ tr, onFlags e.call = true) ∧
      (result = .ok {} ↔ ¬ LostIn onFlags tr) := by
  obtain ⟨r, rfl, hstep, hresult⟩ := updateStatus_call h
  refine ⟨(updateStatus_flags h).1, List.forall_mem_singleton.mpr rfl, ?_⟩
  rw [hresult]
  cases r with
  | ok g =>
      exact iff_of_true ⟨g, rfl⟩ (not_lostIn_of_reached
        (List.forall_mem_singleton.mpr not_lost_ok))
  | error err =>
      refine iff_of_false ?_ (not_not.mpr ?_)
      · rintro ⟨g, hg⟩
        cases hg
      refine ⟨_, List.mem_singleton_self _, rfl, ?_⟩
      by_contra hlost
      have hclean := cleanStep_of_not_lost hstep hlost
      obtain ⟨g, t, hupdate⟩ : ∃ g t, s.flags.update mergeFlagStatus
          { f with status := newStatus now f phase value count } = (.ok g, t) :=
        VTable.update_of_current hf rfl
      have hreply : written (s.flags.update mergeFlagStatus { f with
          status := newStatus now f phase value count }).1 = .error err :=
        congrArg Prod.fst hclean
      rw [hupdate] at hreply
      cases hreply

omit [Apimachinery] in
/-- In a reconcile that fetched its flag. -/
theorem lostIn_reconcile (req : ObjectKey) (f : FeatureFlag)
    {tr₁ tr₂ : List KubeEvent} (h₁ : ∀ e ∈ tr₁, onFlags e.call = false)
    (h₂ : ∀ e ∈ tr₂, onFlags e.call = true) :
    let tr : List KubeEvent := ⟨.getFlag req, .ok f⟩ :: (tr₁ ++ tr₂)
    (LostIn onFlags tr ↔ LostIn onFlags tr₂) ∧
    (LostIn onDeployments tr ↔ LostIn onDeployments tr₁) ∧
    (LostIn onConfigMaps tr ↔ LostIn onConfigMaps tr₁) := by
  intro tr
  have htr : ∀ kind, LostIn kind tr ↔ LostIn kind tr₁ ∨ LostIn kind tr₂ := by
    intro kind
    rw [← lostIn_append]
    constructor
    · rintro ⟨e, he, hkind, hlost⟩
      rcases List.mem_cons.mp he with rfl | he
      · exact absurd hlost not_lost_ok
      · exact ⟨e, he, hkind, hlost⟩
    · rintro ⟨e, he, hkind, hlost⟩
      exact ⟨e, .tail _ he, hkind, hlost⟩
  refine ⟨?_, ?_, ?_⟩
  · rw [htr]
    exact or_iff_right (not_lostIn h₁)
  · rw [htr]
    exact or_iff_left (not_lostIn fun e he => (onFlags_only (h₂ e he)).1)
  · rw [htr]
    exact or_iff_left (not_lostIn fun e he => (onFlags_only (h₂ e he)).2)

/-- For an enabled flag that exists, a clean return means delivered if and only
if the return is not clean, because the fetch or the status write was lost, or
the delivery was not harmed by what was lost and by a missing key. -/
theorem clean_return_iff {now : Nat} {req : ObjectKey} {f : FeatureFlag}
    {s s' : Cluster} {tr : List KubeEvent} {result : Except String Result}
    (hf : s.flags.get? req = some f) (hdis : f.spec.disabled = false)
    (h : Completes KubeStep (reconcile now req) s tr result s') :
    (result = .ok {} → EnvDelivered f s' ∧ ConfigMapDelivered f s') ↔
      LostIn onFlags tr ∨
      (EnvDelivered f s ∨ ¬ LostIn onDeployments tr) ∧
      (ConfigMapDelivered f s ∨ envFails f = false ∧
        ¬ LostIn onDeployments tr ∧ ¬ LostIn onConfigMaps tr ∧
        ¬ MissesKey f s) := by
  have hdelivers : ∀ {r phase count tr₁ tr₂ m},
      Completes KubeStep (deliver f f.spec.defaultValue) s tr₁ r m →
      Completes KubeStep (updateStatus now f phase f.spec.defaultValue count) m
        tr₂ result s' →
      ((result = .ok {} → EnvDelivered f s' ∧ ConfigMapDelivered f s') ↔
        LostIn onFlags (⟨.getFlag req, .ok f⟩ :: (tr₁ ++ tr₂)) ∨
          Delivers f s (⟨.getFlag req, .ok f⟩ :: (tr₁ ++ tr₂))) := by
    intro r phase count tr₁ tr₂ m hdeliver hstatus
    have hends := deliver_ends hdeliver
    have hstored : m.flags.get? f.metadata.objectKey = some f := by
      have hkey : f.metadata.objectKey = req := VTable.key_of_get? hf
      rw [hends.flags, hkey]
      exact hf
    obtain ⟨hrest, hcalls, hok⟩ := updateStatus_ends hstored hstatus
    obtain ⟨hflags, hdeps, hmaps⟩ := lostIn_reconcile req f hends.calls hcalls
    have hdelivered : EnvDelivered f s' ∧ ConfigMapDelivered f s' ↔
        Delivers f s tr₁ := by
      rw [← hends.delivered, envDelivered_congr (s := m) (by rw [hrest]),
        (configMaps_congr (s := m) (by rw [hrest])).1]
    rw [hok, hdelivered, hflags, Delivers, Delivers, hdeps, hmaps]
    exact or_iff_not_imp_left.symm
  cases reconcile_cases id h with
  | @unread err _ hget hresult =>
      -- the flag exists, so this is no answer of the server
      have hlost : Lost ⟨.getFlag req, .error err⟩ := by
        by_contra hlost
        have hfound : found (s.flags.get? req) = .error err :=
          congrArg Prod.fst (cleanStep_of_not_lost hget hlost)
        rw [hf] at hfound
        cases hfound
      have hnot : result ≠ .ok {} := by
        obtain ⟨message, hreply⟩ := hlost
        cases hreply
        rw [hresult]
        exact fun hok => nomatch hok
      exact iff_of_true (fun hok => absurd hok hnot)
        (.inl ⟨_, List.mem_cons_self, rfl, hlost⟩)
  | disabled hg hdis' =>
      obtain rfl := Option.some.inj (hf.symm.trans hg)
      rw [hdis] at hdis'
      cases hdis'
  | failed hg _ hdeliver hstatus | active hg _ hdeliver hstatus =>
      obtain rfl := Option.some.inj (hf.symm.trans hg)
      exact hdelivers hdeliver hstatus

end

/-! The second call of this reconcile, which lists the Deployments, is lost. -/

def appFlag : FeatureFlag := sampleFlag {
  envVar := some { selector := some (sampleSelector "web") } }

def appCluster (env : List EnvVar) : Cluster where
  flags := VTable.empty.write appFlag
  deployments := VTable.empty.write (sampleDeployment "web" "web" env)

def listLost (env : List EnvVar) :
    List KubeEvent × Except String Result × List (Option String) × Cluster :=
  letI := labelSelectors
  (reconcile 7 ⟨"default", "dark-mode"⟩).exec KubeCall.servePlan
    ([none, some "timeout"], appCluster env)

theorem clean_return_iff_sample :
    letI := labelSelectors
    let run := listLost [{ name := "FLAG_DARK_MODE", value := "true" }]
    run.2.1 = .ok {} ∧ EnvDelivered appFlag run.2.2.2 ∧
      ConfigMapDelivered appFlag run.2.2.2 := by
  let := labelSelectors
  have hclean := clean_return_iff (f := { appFlag with
    metadata.resourceVersion := 1 }) (by decide) (by decide)
    (attemptPlan_completes ⟨"default", "dark-mode"⟩ 7 [none, some "timeout"]
      (appCluster [{ name := "FLAG_DARK_MODE", value := "true" }]))
  have hok : (listLost [{ name := "FLAG_DARK_MODE", value := "true" }]).2.1 =
      .ok {} := by decide
  exact ⟨hok, hclean.mpr (.inr ⟨.inl (by decide), .inl (by decide)⟩) hok⟩

theorem lost_list_returns_clean :
    letI := labelSelectors
    let run := listLost []
    run.2.1 = .ok {} ∧ ¬ EnvDelivered appFlag run.2.2.2 := by
  let := labelSelectors
  exact ⟨by decide, by decide⟩

end Vexil.Operator
