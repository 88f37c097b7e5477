import Vexil.Server.Scan

/-!
# The flags that match a workload

`enrichWithMatchingFlags` pools the selectors of all namespaces, in the order in
which Go ranges over a set, and then matches every workload against the whole
pool. A selector carries the namespace of its flag, so of the pool only one
segment can match a workload: the one that its own namespace contributed
(`matchingFlags_flatMap`). Whatever is in the other segments, in whatever order,
or is missing from them because a listing failed, does not show.
-/

namespace Vexil.Server

open Vexil.Lib Vexil.Kube

namespace WorkloadHandler

section
variable [Apimachinery]

/-! ## The pool -/

/-- What a listing contributes. -/
def segment : Except ApiError (List FeatureFlag) → List FlagSelector
  | .error _ => []
  | .ok items => items.filterMap flagSelector

/-- A run that collects the selectors: the answer to each listing, and the pool
as their segments in the order of the listings. -/
theorem flagSelectors_run {nss : List String} {s s' : Cluster}
    {tr : List KubeEvent} {selectors : List FlagSelector} (hnodup : nss.Nodup)
    (h : Completes KubeStep (flagSelectors nss) s tr selectors s') :
    ∃ reply : String → Except ApiError (List FeatureFlag),
      tr = nss.map (fun ns => ⟨.listFlags (some ns), reply ns⟩) ∧
      selectors = nss.flatMap (fun ns => segment (reply ns)) ∧ s' = s ∧
      ∀ ns items, reply ns = .ok items →
        items = s.flags.rows.items.filter fun f => ns = f.metadata.ns := by
  induction nss generalizing s tr selectors with
  | nil =>
      obtain ⟨rfl, rfl, rfl⟩ := completes_ret.mp h
      exact ⟨fun _ => .error ⟨none, ""⟩, rfl, rfl, rfl,
        fun _ _ hreply => by cases hreply⟩
  | cons ns rest ih =>
      obtain ⟨hnot, hnodup⟩ := List.nodup_cons.mp hnodup
      obtain ⟨r, tr, m, rfl, hlist, hnext⟩ := completes_call.mp h
      obtain rfl := hlist.of_read rfl
      have hrest : ∃ selectors', Completes KubeStep (flagSelectors rest) m tr
          selectors' s' ∧ selectors = segment r ++ selectors' := by
        cases r with
        | error err => exact ⟨selectors, hnext, rfl⟩
        | ok items => exact completes_map hnext
      obtain ⟨selectors', hrest, rfl⟩ := hrest
      obtain ⟨reply, htr, hsel, hs, hitems⟩ := ih hnodup hrest
      have hsame : ∀ n ∈ rest, Function.update reply ns r n = reply n :=
        fun n hn => Function.update_of_ne (ne_of_mem_of_not_mem hn hnot) ..
      refine ⟨Function.update reply ns r, ?_, ?_, hs, ?_⟩
      · rw [List.map_cons, Function.update_self, htr]
        exact congrArg _ (List.map_congr_left fun n hn => by rw [hsame n hn])
      · rw [List.flatMap_cons, Function.update_self, hsel]
        exact congrArg _ (List.flatMap_congr fun n hn => by rw [hsame n hn])
      · intro n items hreply
        by_cases hn : n = ns
        · subst hn
          rw [Function.update_self] at hreply
          subst hreply
          have hserve := congrArg Prod.fst (kubeStep_ok hlist)
          simpa [KubeCall.serve] using hserve.symm
        · rw [Function.update_of_ne hn] at hreply
          exact hitems n items hreply

/-! ## One workload -/

/-- The flag's effective selector exists, is valid and matches. -/
def Targets (f : FeatureFlag) (labels : GoMap String) : Prop :=
  ∃ ls sel, f.spec.delivery.bind deliverySelector = some ls ∧
    Apimachinery.labelSelectorAsSelector (some ls) = .ok sel ∧
    sel labels = true

theorem targets_iff {f : FeatureFlag} {labels : GoMap String} :
    Targets f labels ↔
      ∃ fs, flagSelector f = some fs ∧ fs.selector labels = true := by
  constructor
  · rintro ⟨ls, sel, hls, hsel, hmatch⟩
    exact ⟨_, flagSelector_eq_some.mpr ⟨ls, sel, hls, hsel, rfl⟩, hmatch⟩
  · rintro ⟨fs, hfs, hmatch⟩
    obtain ⟨ls, sel, hls, hsel, rfl⟩ := flagSelector_eq_some.mp hfs
    exact ⟨ls, sel, hls, hsel, hmatch⟩

/-- The names, in the order of the listing and without repetition, of exactly
the flags of the namespace that target these labels. -/
structure MatchesExactly (s : Cluster) (ns : String) (labels : GoMap String)
    (names : List String) : Prop where
  listed : names.Sublist ((s.flags.rows.items.filter fun f =>
    ns = f.metadata.ns).map fun f => f.metadata.name)
  nodup : names.Nodup
  exact : ∀ name, name ∈ names ↔
    ∃ f, s.flags.get? ⟨ns, name⟩ = some f ∧ Targets f labels

omit [Apimachinery] in
/-- A namespace does not list two flags of one name. -/
theorem names_nodup (s : Cluster) (ns : String) :
    ((s.flags.rows.items.filter fun f => ns = f.metadata.ns).map fun f =>
      f.metadata.name).Nodup := by
  refine List.Nodup.map_on ?_ (.filter _ (.of_map _ s.flags.rows.nodup))
  intro f hf g hg hname
  obtain ⟨hf, hfns⟩ := List.mem_filter.mp hf
  obtain ⟨hg, hgns⟩ := List.mem_filter.mp hg
  have hns : f.metadata.ns = g.metadata.ns :=
    (of_decide_eq_true hfns).symm.trans (of_decide_eq_true hgns)
  have hkey : f.metadata.objectKey = g.metadata.objectKey := by
    rw [ObjectMeta.objectKey, ObjectMeta.objectKey, hns, hname]
  exact Table.eq_of_key hf hg hkey

theorem names_sublist (labels : GoMap String) (items : List FeatureFlag) :
    (((items.filterMap flagSelector).filter fun fs => fs.selector labels).map
      FlagSelector.name).Sublist (items.map fun f => f.metadata.name) := by
  induction items with
  | nil => exact .slnil
  | cons f items ih =>
      rw [List.map_cons, List.filterMap_cons]
      cases hfs : flagSelector f with
      | none => exact ih.cons _
      | some fs =>
          dsimp only
          rw [List.filter_cons]
          split
          · rw [List.map_cons, name_of_flagSelector hfs]
            exact ih.cons_cons _
          · exact ih.cons _

/-- The segment of a namespace that was listed. -/
theorem segment_exact (s : Cluster) (ns : String) (labels : GoMap String) :
    MatchesExactly s ns labels (((selectorsIn s ns).filter fun fs =>
      fs.selector labels).map FlagSelector.name) where
  listed := names_sublist labels _
  nodup := (names_nodup s ns).sublist (names_sublist labels _)
  exact name := by
    simp only [targets_iff, selectorsIn, List.mem_map, List.mem_filter,
      List.mem_filterMap]
    constructor
    · rintro ⟨fs, ⟨⟨f, ⟨hf, hns⟩, hfs⟩, hmatch⟩, rfl⟩
      refine ⟨f, ?_, fs, hfs, hmatch⟩
      rw [name_of_flagSelector hfs, of_decide_eq_true hns]
      exact Table.get?_of_mem hf
    · rintro ⟨f, hget, fs, hfs, hmatch⟩
      have hkey : f.metadata.objectKey = ⟨ns, name⟩ := VTable.key_of_get? hget
      obtain ⟨rfl, rfl⟩ := ObjectKey.mk.inj hkey
      exact ⟨fs, ⟨⟨f, ⟨Table.mem_of_get? hget, decide_eq_true rfl⟩, hfs⟩,
        hmatch⟩, name_of_flagSelector hfs⟩

/-! ## All of them -/

/-- What a workload is given. Its namespace has been listed, and if the listing
failed the workload is shown without flags. -/
structure Enriched (s : Cluster) (tr : List KubeEvent)
    (wl wl' : DiscoveredWorkload) : Prop where
  rest : { wl' with matchingFlags := [] } = wl
  asked : ∃ reply, (⟨.listFlags (some wl.ns), reply⟩ : KubeEvent) ∈ tr
  failed : ∀ err, (⟨.listFlags (some wl.ns), .error err⟩ : KubeEvent) ∈ tr →
    wl'.matchingFlags = []
  listed : ∀ items, (⟨.listFlags (some wl.ns), .ok items⟩ : KubeEvent) ∈ tr →
    MatchesExactly s wl.ns wl.labels wl'.matchingFlags

/-- In whatever order the namespaces are listed, and whichever of the listings
fail, each workload is given exactly the flags of its own namespace that target
it. -/
theorem enrich_exact {nss : List String}
    {workloads result : List DiscoveredWorkload} {s s' : Cluster}
    {tr : List KubeEvent}
    (horder : nss.Perm (workloads.map DiscoveredWorkload.ns).dedup)
    (hempty : ∀ wl ∈ workloads, wl.matchingFlags = [])
    (h : Completes KubeStep (enrichInOrder nss workloads) s tr result s') :
    List.Forall₂ (Enriched s tr) workloads result ∧ s' = s := by
  have hnodup : nss.Nodup := horder.nodup_iff.mpr (List.nodup_dedup _)
  obtain ⟨selectors, hrun, rfl⟩ := completes_map h
  obtain ⟨reply, htr, rfl, rfl, hitems⟩ := flagSelectors_run hnodup hrun
  refine ⟨?_, rfl⟩
  rw [List.forall₂_map_right_iff, List.forall₂_same]
  intro wl hwl
  have hns : wl.ns ∈ nss := horder.mem_iff.mpr
    (List.mem_dedup.mpr (List.mem_map_of_mem hwl))
  -- there is one listing of the namespace, so its answer is known
  have hreply : ∀ r, (⟨.listFlags (some wl.ns), r⟩ : KubeEvent) ∈ tr →
      r = reply wl.ns := by
    intro r hr
    rw [htr] at hr
    obtain ⟨ns, _, heq⟩ := List.mem_map.mp hr
    cases heq
    rfl
  have hok : ∀ ns items, reply ns = .ok items →
      segment (reply ns) = selectorsIn s' ns := by
    intro ns items hreply
    rw [hreply, hitems ns items hreply]
    rfl
  have hsegment : ∀ ns, ∀ fs ∈ segment (reply ns), fs.ns = ns := by
    intro ns fs hfs
    cases hr : reply ns with
    | error err =>
        rw [hr] at hfs
        cases hfs
    | ok items =>
        rw [hok ns items hr] at hfs
        exact ns_of_selectorsIn hfs
  rw [matchingFlags_flatMap hsegment hnodup hns, hempty wl hwl, List.nil_append]
  constructor
  · rw [← hempty wl hwl]
  · exact ⟨reply wl.ns, htr ▸ List.mem_map_of_mem hns⟩
  · intro err herr
    rw [← hreply _ herr]
    rfl
  · intro items hlisted
    rw [hok wl.ns items (hreply _ hlisted).symm]
    exact segment_exact s' wl.ns wl.labels

end

/-! Flags of one name in two namespaces, listed in the reverse order. -/

def matchDelivery : EnvVarDelivery where
  selector := some { matchLabels := GoMap.single "app" "web" }

def matchFlag (ns : String) : FeatureFlag where
  metadata := { name := "dark-mode", ns := ns }
  spec :=
    { type := .boolean
      defaultValue := "true"
      delivery := some { envVar := some matchDelivery } }

def matchCluster : Cluster where
  flags := (VTable.empty.write (matchFlag "default")).write (matchFlag "shop")

def matchWorkload (ns app : String) : DiscoveredWorkload where
  cluster := "prod"
  ns := ns
  name := "web"
  kind := "Deployment"
  replicas := 1
  labels := GoMap.single "app" app
  containers := []

theorem enrich_exact_sample :
    letI := labelSelectors
    let workloads := [matchWorkload "default" "web", matchWorkload "shop" "db"]
    let run := (enrichInOrder ["shop", "default"] workloads).exec KubeCall.serve
      matchCluster
    List.Forall₂ (Enriched matchCluster run.1) workloads run.2.1 ∧
      run.2.2 = matchCluster :=
  letI := labelSelectors
  enrich_exact (by decide) (by decide)
    ((Prog.exec_completes KubeCall.serve _ matchCluster).mono
      fun _ _ _ => CleanStep.kubeStep)

example :
    letI := labelSelectors
    let run := (enrichInOrder ["shop", "default"]
      [matchWorkload "default" "web", matchWorkload "shop" "db"]).exec
        KubeCall.serve matchCluster
    run.2.1.map DiscoveredWorkload.matchingFlags = [["dark-mode"], []] := by
  decide +kernel

end WorkloadHandler

end Vexil.Server
