import Vexil.Operator.Ways
import Vexil.Server.Scan

/-!
# Which ConfigMaps are shown

The operator labels the ConfigMaps it creates, and the scanner takes the label
for the mark of the operator. Between the two, three things go by unmarked. A
delivery to a ConfigMap that exists leaves its labels as they are. A user can
set the label on a ConfigMap of his own. And the reference of a `FLAG_` variable
is shown without a look at the label.

A run of deliveries is followed by the label alone (`marked_run`): a ConfigMap
that was there keeps what it had, one that was not has the label from the first
delivery on.
-/

namespace Vexil.Server

open Vexil.Lib Vexil.Kube Vexil.Operator

/-! ## Deliveries -/

/-- The arguments of one `deliverViaConfigMap`. -/
structure DeliveryToMap where
  flag : FeatureFlag
  delivery : ConfigMapDelivery
  value : String

def DeliveryToMap.target (d : DeliveryToMap) : ObjectKey :=
  ⟨d.flag.metadata.ns, d.delivery.configMapName⟩

def DeliveryToMap.prog (d : DeliveryToMap) : OpProg (Except String Unit) :=
  deliverViaConfigMap d.flag d.delivery d.value

/-- A delivery that returns no error. -/
def Delivers (s : Cluster) (d : DeliveryToMap) (s' : Cluster) : Prop :=
  ∃ tr, Completes KubeStep d.prog s tr (.ok ()) s'

/-- Whether the ConfigMap under a key has the operator's label. -/
def marked (s : Cluster) (k : ObjectKey) : Option Bool :=
  (s.configMaps.get? k).map fun cm => vexilManaged cm.metadata.labels

theorem mem_managedConfigMaps {s : Cluster} {ns name : String} :
    name ∈ managedConfigMaps s ns ↔ marked s ⟨ns, name⟩ = some true := by
  rw [managedConfigMaps, marked, List.mem_map, Option.map_eq_some_iff]
  constructor
  · rintro ⟨cm, hcm, rfl⟩
    obtain ⟨hmem, hmatch⟩ := List.mem_filter.mp hcm
    obtain ⟨rfl, hlabel⟩ := of_decide_eq_true hmatch
    exact ⟨cm, Table.get?_of_mem hmem, hlabel⟩
  · rintro ⟨cm, hcm, hlabel⟩
    have hkey : cm.metadata.objectKey = ⟨ns, name⟩ := VTable.key_of_get? hcm
    obtain ⟨rfl, rfl⟩ := ObjectKey.mk.inj hkey
    exact ⟨cm, List.mem_filter.mpr ⟨Table.mem_of_get? hcm, by simp [hlabel]⟩,
      rfl⟩

theorem marked_write {s : Cluster} {cm : ConfigMap} (k : ObjectKey) :
    marked { s with configMaps := s.configMaps.write cm } k =
      if k = cm.metadata.objectKey then some (vexilManaged cm.metadata.labels)
      else marked s k := by
  have hget : (s.configMaps.write cm).get? k =
      if k = cm.metadata.objectKey then some (s.configMaps.stamp cm)
      else s.configMaps.get? k := VTable.get?_write s.configMaps cm k
  rw [marked, hget]
  split
  · rfl
  · rfl

/-- The first delivery to a ConfigMap that does not exist labels it; no other
one touches a label. -/
theorem marked_delivers {s s' : Cluster} {d : DeliveryToMap}
    (h : Delivers s d s') (k : ObjectKey) :
    marked s' k =
      if d.target = k then some ((marked s k).getD true) else marked s k := by
  obtain ⟨tr, h⟩ := h
  cases configMap_cases id h with
  | created _ hnone hcreate =>
      obtain ⟨_, rfl⟩ := kubeStep_createConfigMap hcreate
      have hmarked : marked s d.target = none := by
        rw [marked, DeliveryToMap.target, hnone]
        rfl
      have hlabel : vexilManaged
          (newConfigMap d.flag d.delivery d.value).metadata.labels = true := by
        rw [vexilManaged, decide_eq_true_eq]
        exact (GoMap.lookup_single ..).trans (if_pos rfl)
      rw [marked_write]
      by_cases hk : d.target = k
      · subst hk
        rw [if_pos rfl, hmarked, hlabel]
        exact if_pos rfl
      · rw [if_neg hk]
        exact if_neg (Ne.symm hk)
  | @updated cm cm' _ hcm _ hupdate =>
      have hkey : cm.metadata.objectKey = d.target := VTable.key_of_get? hcm
      have hmarked : marked s d.target =
          some (vexilManaged cm.metadata.labels) := by
        rw [marked, DeliveryToMap.target, hcm]
        rfl
      obtain ⟨_, _, _, ⟨_, rfl⟩ | rfl⟩ := kubeStep_updateConfigMap hupdate
      · split
        · next hk => rw [← hk, hmarked, Option.getD_some]
        · rfl
      · rw [marked_write]
        by_cases hk : d.target = k
        · subst hk
          rw [if_pos rfl, hmarked, Option.getD_some]
          exact if_pos hkey.symm
        · rw [if_neg hk]
          exact if_neg fun hk' => hk (hkey ▸ hk'.symm)
  | @unneeded cm hcm =>
      split
      · next hk =>
          subst hk
          rw [marked, DeliveryToMap.target, hcm]
          rfl
      · rfl

/-- Some delivery of the run went to this ConfigMap. -/
def DeliveredTo (ds : List DeliveryToMap) (k : ObjectKey) : Prop :=
  ∃ d ∈ ds, d.target = k

instance (ds : List DeliveryToMap) (k : ObjectKey) :
    Decidable (DeliveredTo ds k) :=
  inferInstanceAs (Decidable (∃ d ∈ ds, d.target = k))

theorem marked_run {ds : List DeliveryToMap} {s s' : Cluster}
    (h : Run Delivers s ds s') (k : ObjectKey) :
    marked s' k =
      if DeliveredTo ds k then some ((marked s k).getD true)
      else marked s k := by
  induction h with
  | nil => exact (if_neg (by simp [DeliveredTo])).symm
  | @cons s m s' d ds hd _ ih =>
      have hmem : DeliveredTo (d :: ds) k ↔ d.target = k ∨ DeliveredTo ds k :=
        List.exists_mem_cons_iff ..
      rw [ih, marked_delivers hd k]
      by_cases hk : d.target = k
      · rw [if_pos hk, if_pos (hmem.mpr (.inl hk)), Option.getD_some, ite_self]
      · simp only [hmem, hk, false_or, if_false]

/-- The operator's ConfigMaps after a run. -/
theorem managed_run {ds : List DeliveryToMap} {s s' : Cluster}
    (h : Run Delivers s ds s') (ns name : String) :
    name ∈ managedConfigMaps s' ns ↔
      marked s ⟨ns, name⟩ = some true ∨
        marked s ⟨ns, name⟩ = none ∧ DeliveredTo ds ⟨ns, name⟩ := by
  rw [mem_managedConfigMaps, marked_run h]
  cases marked s ⟨ns, name⟩ with
  | none => simp
  | some b => simp

theorem workloadsIn_delivers {s s' : Cluster} {d : DeliveryToMap}
    (h : Delivers s d s') (ns : String) :
    workloadsIn s' ns = workloadsIn s ns := by
  obtain ⟨tr, h⟩ := h
  cases configMap_cases id h with
  | created _ _ hcreate =>
      obtain ⟨_, rfl⟩ := kubeStep_createConfigMap hcreate
      rfl
  | updated _ _ hupdate =>
      obtain ⟨_, _, _, ⟨_, rfl⟩ | rfl⟩ := kubeStep_updateConfigMap hupdate
      · rfl
      · rfl
  | unneeded => rfl

theorem workloadsIn_run {ds : List DeliveryToMap} {s s' : Cluster}
    (h : Run Delivers s ds s') (ns : String) :
    workloadsIn s' ns = workloadsIn s ns :=
  h.keeps (f := fun s => workloadsIn s ns)
    fun _ _ _ _ hd => workloadsIn_delivers hd ns

/-! ## References -/

/-- The ConfigMaps a container's `FLAG_` variables take a key of. -/
def flagConfigMaps (c : Container) : List String :=
  (c.env.filter fun env => hasPrefix env.name "FLAG_").filterMap fun env => do
    return (← (← env.valueFrom).configMapKeyRef).name

/-- The ConfigMaps a container takes whole. -/
def wholeConfigMaps (c : Container) : List String :=
  c.envFrom.filterMap EnvFromSource.configMapRef

def Refers (c : Container) (name : String) : Prop :=
  name ∈ flagConfigMaps c ∨ name ∈ wholeConfigMaps c

/-- The ConfigMap is among the references that are listed. -/
def Lists (info : ContainerInfo) (name : String) : Prop :=
  ∃ ref ∈ info.configMapRefs, ref.name = name

theorem lists_flag_iff {c : Container} {name : String} :
    (∃ ref ∈ (c.env.filter fun env =>
      hasPrefix env.name "FLAG_").filterMap envConfigMapRef, ref.name = name) ↔
      name ∈ flagConfigMaps c := by
  have hname : (fun env => (envConfigMapRef env).map ConfigMapRef.name) =
      fun env => do return (← (← env.valueFrom).configMapKeyRef).name := by
    funext env
    cases hsource : env.valueFrom with
    | none => simp [envConfigMapRef, hsource]
    | some source =>
        cases href : source.configMapKeyRef with
        | none => simp [envConfigMapRef, hsource, href]
        | some ref => simp [envConfigMapRef, hsource, href]
  rw [← List.mem_map, List.map_filterMap, hname]
  rfl

theorem lists_whole_iff {managed : List String} {c : Container}
    {name : String} :
    (∃ ref ∈ c.envFrom.filterMap fun envFrom =>
      (envFrom.configMapRef.filter (· ∈ managed)).map (ConfigMapRef.mk · ""),
      ref.name = name) ↔ name ∈ wholeConfigMaps c ∧ name ∈ managed := by
  simp only [List.mem_filterMap, Option.map_eq_some_iff,
    Option.filter_eq_some_iff, wholeConfigMaps]
  constructor
  · rintro ⟨_, ⟨envFrom, hfrom, name, ⟨href, hmem⟩, rfl⟩, rfl⟩
    exact ⟨⟨envFrom, hfrom, href⟩, of_decide_eq_true hmem⟩
  · rintro ⟨⟨envFrom, hfrom, href⟩, hmem⟩
    exact ⟨_, ⟨envFrom, hfrom, name, ⟨href, decide_eq_true hmem⟩, rfl⟩, rfl⟩

/-- What is listed of the containers of a workload. -/
theorem lists_extract_iff {managed : List String}
    {containers : List Container} (shown : Container → String → Prop) :
    List.Forall₂ (fun c info => ∀ name, Lists info name ↔ shown c name)
        containers (extractContainersSafe managed containers) ↔
      ∀ c ∈ containers, ∀ name, (name ∈ flagConfigMaps c ∨
        name ∈ wholeConfigMaps c ∧ name ∈ managed) ↔ shown c name := by
  rw [extractContainersSafe, List.forall₂_map_right_iff, List.forall₂_same]
  simp only [Lists, List.mem_append, or_and_right, exists_or, lists_flag_iff,
    lists_whole_iff]

/-! ## Scans -/

/-- A fresh scanner lists, for each container of the namespace, exactly the
ConfigMaps it refers to that are the operator's. -/
def ListsExactly (s : Cluster) (clusterID ns : String)
    (operators : String → Prop) : Prop :=
  ∃ found managed,
    ((scanNamespace clusterID [] ns).exec KubeCall.serve s).2.1 =
      (.ok found, managed) ∧
    List.Forall₂ (fun w wl => List.Forall₂ (fun c info =>
        ∀ name, Lists info name ↔ Refers c name ∧ operators name)
      w.template.containers wl.containers) (workloadsIn s ns) found

/-- The label tells what the operator has delivered to: every ConfigMap named
by a `FLAG_` variable has been delivered to, and of those that are taken whole
and were there before, the labelled ones have. -/
def LabelsTell (s : Cluster) (ds : List DeliveryToMap) (ns : String) : Prop :=
  ∀ w ∈ workloadsIn s ns, ∀ c ∈ w.template.containers,
    (∀ name ∈ flagConfigMaps c, DeliveredTo ds ⟨ns, name⟩) ∧
    ∀ name ∈ wholeConfigMaps c, name ∉ flagConfigMaps c →
      ∀ b ∈ marked s ⟨ns, name⟩, (b = true ↔ DeliveredTo ds ⟨ns, name⟩)

instance (s : Cluster) (ds : List DeliveryToMap) (ns : String) :
    Decidable (LabelsTell s ds ns) :=
  inferInstanceAs (Decidable (∀ w ∈ workloadsIn s ns,
    ∀ c ∈ w.template.containers,
      (∀ name ∈ flagConfigMaps c, DeliveredTo ds ⟨ns, name⟩) ∧
      ∀ name ∈ wholeConfigMaps c, name ∉ flagConfigMaps c →
        ∀ b ∈ marked s ⟨ns, name⟩, (b = true ↔ DeliveredTo ds ⟨ns, name⟩)))

/-- One reference: it is listed rightly exactly if the label tells. -/
theorem listed_right_iff {inFlag inWhole delivered : Prop}
    {mark : Option Bool} :
    ((inFlag ∨ inWhole ∧ (mark = some true ∨ mark = none ∧ delivered)) ↔
        (inFlag ∨ inWhole) ∧ delivered) ↔
      (inFlag → delivered) ∧
        (inWhole → ¬ inFlag → ∀ b ∈ mark, (b = true ↔ delivered)) := by
  by_cases hflag : inFlag
  · simp [hflag]
  by_cases hwhole : inWhole
  · cases mark with
    | none => simp [hflag]
    | some b => simp [hflag, hwhole]
  · simp [hflag, hwhole]

/-- After a run of deliveries exactly the operator's ConfigMaps are listed if
and only if the labels tell which ones these are. -/
theorem listsExactly_iff {s s' : Cluster} {ds : List DeliveryToMap}
    (h : Run Delivers s ds s') (clusterID ns : String) :
    ListsExactly s' clusterID ns (fun name => DeliveredTo ds ⟨ns, name⟩) ↔
      LabelsTell s ds ns := by
  rw [ListsExactly, exec_scanNamespace, workloadsIn_run h]
  simp only [Prod.mk.injEq, Except.ok.injEq, and_assoc, exists_and_left,
    exists_eq_left', List.forall₂_map_right_iff, List.forall₂_same,
    List.nil_append, discovered, LabelsTell]
  refine forall₂_congr fun w _ => ?_
  rw [lists_extract_iff fun c name =>
    Refers c name ∧ DeliveredTo ds ⟨ns, name⟩]
  refine forall₂_congr fun c _ => ?_
  simp only [managed_run h, Refers, listed_right_iff, forall_and]

/-! One flag is delivered to a ConfigMap that a workload takes whole: to one
the operator creates, and to one that a user has created before. -/

def settingsDelivery : DeliveryToMap where
  flag := sampleFlag {}
  delivery := ⟨"settings", "dark-mode", none⟩
  value := "true"

def settingsReader : Deployment where
  metadata := { name := "web", ns := "default" }
  template := { containers :=
    [{ name := "main", envFrom := [{ configMapRef := some "settings" }] }] }

def settingsCluster (configMaps : VTable ConfigMap) : Cluster where
  deployments := VTable.empty.write settingsReader
  configMaps := configMaps

def userSettings : ConfigMap where
  metadata := { name := "settings", ns := "default" }
  data := some (GoMap.single "color" "green")

/-- The cluster after the delivery. -/
def settingsDelivered (configMaps : VTable ConfigMap) : Cluster :=
  (settingsDelivery.prog.exec KubeCall.serve (settingsCluster configMaps)).2.2

theorem settingsDelivered_run {configMaps : VTable ConfigMap}
    (hok : (settingsDelivery.prog.exec KubeCall.serve
      (settingsCluster configMaps)).2.1 = .ok ()) :
    Run Delivers (settingsCluster configMaps) [settingsDelivery]
      (settingsDelivered configMaps) := by
  have hrun := (settingsDelivery.prog.exec_completes KubeCall.serve
    (settingsCluster configMaps)).mono fun _ _ _ => CleanStep.kubeStep
  rw [hok] at hrun
  exact .cons ⟨_, hrun⟩ .nil

theorem listsExactly_iff_sample :
    ListsExactly (settingsDelivered .empty) "prod" "default" fun name =>
      DeliveredTo [settingsDelivery] ⟨"default", name⟩ :=
  (listsExactly_iff (settingsDelivered_run (by decide +kernel)) "prod"
    "default").mpr (by decide +kernel)

/-- A ConfigMap that has been delivered to and is taken whole is not listed. -/
theorem delivered_not_listed :
    let s := settingsDelivered (VTable.empty.write userSettings)
    Run Delivers (settingsCluster (VTable.empty.write userSettings))
        [settingsDelivery] s ∧
      (s.configMaps.get? ⟨"default", "settings"⟩).map (fun cm =>
        (orEmpty cm.data).index "dark-mode") = some "true" ∧
      ((workloadsIn s "default").map fun w =>
        w.template.containers.map wholeConfigMaps) = [[["settings"]]] ∧
      (((scanNamespace "prod" [] "default").exec KubeCall.serve s).2.1.1.map
        fun found => found.map fun wl =>
          wl.containers.map ContainerInfo.configMapRefs) = .ok [[[]]] ∧
      ¬ ListsExactly s "prod" "default" fun name =>
        DeliveredTo [settingsDelivery] ⟨"default", name⟩ := by
  refine ⟨settingsDelivered_run (by decide +kernel), by decide +kernel,
    by decide +kernel, by decide +kernel, ?_⟩
  rintro ⟨found, managed, hscan, hlists⟩
  have hworkloads : workloadsIn
      (settingsDelivered (VTable.empty.write userSettings)) "default" =
      [ofDeployment (VTable.empty.stamp settingsReader)] := by decide +kernel
  rw [exec_scanNamespace] at hscan
  cases hscan
  rw [hworkloads, List.forall₂_map_right_iff, List.forall₂_same] at hlists
  have hcontainers := (lists_extract_iff _).mp (hlists _ List.mem_cons_self)
  have hname := (hcontainers _ List.mem_cons_self "settings").mpr
    ⟨.inr (by decide), by decide⟩
  revert hname
  decide +kernel

end Vexil.Server
