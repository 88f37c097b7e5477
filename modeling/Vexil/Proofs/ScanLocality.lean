import Vexil.Server.Scan

/-!
# One namespace at a time

A `Scanner` remembers the names of the operator's ConfigMaps from one namespace
to the next, and a reference is matched against all the names it remembers. So a
scan of several namespaces is the scans of each of them, one after another,
exactly if no workload refers to a ConfigMap by a name that is the operator's in
an earlier namespace and not in its own.

`scanned_eq_iff` is this for the loop of `ScanCluster`, with what the scanner
remembers as the loop variable. A filter on one namespace picks one segment out
of the scan, which settles the two forms of the workloads API.
-/

namespace Vexil.Server

open Vexil.Lib Vexil.Kube WorkloadHandler

/-! ## One workload -/

/-- The ConfigMaps a workload takes whole into its environment. -/
def envFromNames (w : Workload) : List String :=
  w.template.containers.flatMap fun c =>
    c.envFrom.filterMap EnvFromSource.configMapRef

/-- The references of one container that are shown. -/
theorem managedRefs_eq_iff {managed managed' : List String}
    {sources : List EnvFromSource} (hsub : ∀ name ∈ managed', name ∈ managed) :
    sources.filterMap (fun envFrom =>
        (envFrom.configMapRef.filter (· ∈ managed)).map (ConfigMapRef.mk · "")) =
      sources.filterMap (fun envFrom =>
        (envFrom.configMapRef.filter (· ∈ managed')).map
          (ConfigMapRef.mk · "")) ↔
      ∀ name ∈ sources.filterMap EnvFromSource.configMapRef,
        name ∈ managed → name ∈ managed' := by
  constructor
  · intro h name hname hmem
    obtain ⟨envFrom, hfrom, href⟩ := List.mem_filterMap.mp hname
    have hshown : ConfigMapRef.mk name "" ∈ sources.filterMap (fun envFrom =>
        (envFrom.configMapRef.filter (· ∈ managed)).map
          (ConfigMapRef.mk · "")) :=
      List.mem_filterMap.mpr ⟨envFrom, hfrom, by simp [href, hmem]⟩
    rw [h] at hshown
    obtain ⟨other, _, hother⟩ := List.mem_filterMap.mp hshown
    obtain ⟨name', hfilter, heq⟩ := Option.map_eq_some_iff.mp hother
    cases heq
    simpa using (Option.filter_eq_some_iff.mp hfilter).2
  · intro h
    refine List.filterMap_congr fun envFrom hfrom => ?_
    cases href : envFrom.configMapRef with
    | none => rfl
    | some name =>
        have hname : name ∈ sources.filterMap EnvFromSource.configMapRef :=
          List.mem_filterMap.mpr ⟨envFrom, hfrom, href⟩
        have hiff : name ∈ managed ↔ name ∈ managed' := ⟨h name hname, hsub name⟩
        simp [Option.filter_some, hiff]

theorem discovered_eq_iff {clusterID : String} {managed managed' : List String}
    {w : Workload} (hsub : ∀ name ∈ managed', name ∈ managed) :
    discovered clusterID managed w = discovered clusterID managed' w ↔
      ∀ name ∈ envFromNames w, name ∈ managed → name ∈ managed' := by
  have hcontainers : discovered clusterID managed w =
      discovered clusterID managed' w ↔
      extractContainersSafe managed w.template.containers =
        extractContainersSafe managed' w.template.containers := by
    simp [discovered]
  rw [hcontainers, extractContainersSafe, extractContainersSafe,
    List.map_inj_left]
  simp only [ContainerInfo.mk.injEq, true_and, List.append_cancel_left_eq,
    managedRefs_eq_iff hsub, envFromNames, List.mem_flatMap]
  constructor
  · rintro h name ⟨c, hc, hname⟩
    exact h c hc name hname
  · intro h c hc name hname
    exact h name ⟨c, hc, hname⟩

/-! ## A list of namespaces -/

/-- No workload of the namespace refers to one of these names, unless it is the
operator's in the namespace itself. -/
def KeepsOut (s : Cluster) (names : List String) (ns : String) : Prop :=
  ∀ w ∈ workloadsIn s ns, ∀ name ∈ envFromNames w,
    name ∈ names → name ∈ managedConfigMaps s ns

instance (s : Cluster) (names : List String) (ns : String) :
    Decidable (KeepsOut s names ns) :=
  inferInstanceAs (Decidable (∀ w ∈ workloadsIn s ns,
    ∀ name ∈ envFromNames w, name ∈ names → name ∈ managedConfigMaps s ns))

/-- What is the operator's in `before` is not shown in `ns` on that account. -/
def Apart (s : Cluster) (before ns : String) : Prop :=
  KeepsOut s (managedConfigMaps s before) ns

instance (s : Cluster) (before ns : String) : Decidable (Apart s before ns) :=
  inferInstanceAs (Decidable (KeepsOut s (managedConfigMaps s before) ns))

theorem keepsOut_append {s : Cluster} {names names' : List String}
    {ns : String} : KeepsOut s (names ++ names') ns ↔
      KeepsOut s names ns ∧ KeepsOut s names' ns := by
  constructor
  · intro h
    exact ⟨fun w hw name href hname => h w hw name href (List.mem_append_left _ hname),
      fun w hw name href hname => h w hw name href (List.mem_append_right _ hname)⟩
  · intro h w hw name href hname
    rcases List.mem_append.mp hname with hname | hname
    · exact h.1 w hw name href hname
    · exact h.2 w hw name href hname

theorem keepsOut_flatMap {s : Cluster} {nss : List String} {ns : String} :
    KeepsOut s (nss.flatMap (managedConfigMaps s)) ns ↔
      ∀ before ∈ nss, Apart s before ns := by
  constructor
  · intro h before hbefore w hw name href hname
    exact h w hw name href (List.mem_flatMap.mpr ⟨before, hbefore, hname⟩)
  · intro h w hw name href hname
    obtain ⟨before, hbefore, hname⟩ := List.mem_flatMap.mp hname
    exact h before hbefore w hw name href hname

theorem apart_self (s : Cluster) (ns : String) : Apart s ns ns :=
  fun _ _ _ _ hname => hname

/-- What a scan of one namespace shows, with names remembered and without. -/
theorem map_discovered_eq_iff (clusterID : String) {s : Cluster}
    {managed : List String} {ns : String} :
    (workloadsIn s ns).map
        (discovered clusterID (managed ++ managedConfigMaps s ns)) =
      (workloadsIn s ns).map (discovered clusterID (managedConfigMaps s ns)) ↔
      KeepsOut s managed ns := by
  have hsub : ∀ name ∈ managedConfigMaps s ns,
      name ∈ managed ++ managedConfigMaps s ns :=
    fun name hname => List.mem_append_right managed hname
  rw [List.map_inj_left]
  simp only [discovered_eq_iff hsub]
  show KeepsOut s (managed ++ managedConfigMaps s ns) ns ↔ _
  rw [keepsOut_append]
  exact and_iff_left (apart_self s ns)

/-- What a new scanner finds in a namespace; nothing if it fails. -/
def freshScan (clusterID : String) (s : Cluster) (ns : String) :
    List DiscoveredWorkload :=
  match ((scanNamespace clusterID [] ns).exec KubeCall.serve s).2.1.1 with
  | .error _ => []
  | .ok found => found

theorem freshScan_eq (clusterID : String) (s : Cluster) (ns : String) :
    freshScan clusterID s ns =
      (workloadsIn s ns).map (discovered clusterID (managedConfigMaps s ns)) := by
  rw [freshScan, exec_scanNamespace]
  rfl

theorem scanned_eq_iff {clusterID : String} {s : Cluster}
    {managed nss : List String} (hnss : ∀ ns ∈ nss, ns ∉ systemNamespaces) :
    scanned clusterID s managed nss = nss.flatMap (freshScan clusterID s) ↔
      (∀ ns ∈ nss, KeepsOut s managed ns) ∧ nss.Pairwise (Apart s) := by
  induction nss generalizing managed with
  | nil => simp [scanned]
  | cons ns rest ih =>
      obtain ⟨hns, hrest⟩ := List.forall_mem_cons.mp hnss
      have hlen : ((workloadsIn s ns).map (discovered clusterID
          (managed ++ managedConfigMaps s ns))).length =
          ((workloadsIn s ns).map
            (discovered clusterID (managedConfigMaps s ns))).length := by simp
      rw [scanned, if_neg hns, List.flatMap_cons, freshScan_eq]
      constructor
      · intro h
        obtain ⟨hhead, htail⟩ := List.append_inj h hlen
        obtain ⟨hkeeps, hpair⟩ := (ih hrest).mp htail
        refine ⟨List.forall_mem_cons.mpr ⟨(map_discovered_eq_iff _).mp hhead,
          fun ns' hns' => (keepsOut_append.mp (hkeeps ns' hns')).1⟩,
          List.pairwise_cons.mpr ⟨fun ns' hns' =>
            (keepsOut_append.mp (hkeeps ns' hns')).2, hpair⟩⟩
      · rintro ⟨hkeeps, hpair⟩
        obtain ⟨hhead, hkeeps⟩ := List.forall_mem_cons.mp hkeeps
        obtain ⟨hapart, hpair⟩ := List.pairwise_cons.mp hpair
        have htail := (ih hrest).mpr ⟨fun ns' hns' =>
          keepsOut_append.mpr ⟨hkeeps ns' hns', hapart ns' hns'⟩, hpair⟩
        rw [(map_discovered_eq_iff _).mpr hhead, htail]

/-! ## One namespace of the whole -/

/-- What the scanner remembers after some namespaces. -/
def remembered (s : Cluster) (managed nss : List String) : List String :=
  managed ++ (nss.filter (· ∉ systemNamespaces)).flatMap (managedConfigMaps s)

theorem scanned_append {clusterID : String} {s : Cluster}
    {managed pre rest : List String} :
    scanned clusterID s managed (pre ++ rest) = scanned clusterID s managed pre ++
      scanned clusterID s (remembered s managed pre) rest := by
  induction pre generalizing managed with
  | nil => simp [scanned, remembered]
  | cons ns pre ih =>
      rw [List.cons_append, scanned, scanned]
      by_cases hns : ns ∈ systemNamespaces
      · have hr : remembered s managed (ns :: pre) = remembered s managed pre := by
          simp [remembered, hns]
        rw [if_pos hns, if_pos hns, ih, hr]
      · have hr : remembered s managed (ns :: pre) =
            remembered s (managed ++ managedConfigMaps s ns) pre := by
          simp [remembered, hns]
        rw [if_neg hns, if_neg hns, ih, hr, List.append_assoc]

/-- A filter on a namespace picks out the one scan of it. -/
theorem filter_scanned {clusterID : String} {s : Cluster}
    {managed pre post : List String} {ns : String}
    (hpre : ns ∉ pre) (hpost : ns ∉ post) (hns : ns ∉ systemNamespaces) :
    (scanned clusterID s managed (pre ++ ns :: post)).filter (·.ns = ns) =
      (workloadsIn s ns).map (discovered clusterID
        (remembered s managed pre ++ managedConfigMaps s ns)) := by
  have hnone : ∀ m nss, ns ∉ nss →
      (scanned clusterID s m nss).filter (·.ns = ns) = [] := by
    intro m nss hnot
    rw [List.filter_eq_nil_iff]
    intro wl hwl
    have hmem := ns_of_scanned hwl
    simp only [decide_eq_true_eq]
    rintro rfl
    exact hnot hmem
  have hall : ((workloadsIn s ns).map (discovered clusterID
      (remembered s managed pre ++ managedConfigMaps s ns))).filter
        (·.ns = ns) = (workloadsIn s ns).map (discovered clusterID
      (remembered s managed pre ++ managedConfigMaps s ns)) := by
    rw [List.filter_eq_self]
    intro wl hwl
    obtain ⟨w, hw, rfl⟩ := List.mem_map.mp hwl
    exact decide_eq_true (ns_of_mem hw)
  rw [scanned_append, scanned, if_neg hns, List.filter_append,
    List.filter_append, hnone managed pre hpre, hnone _ post hpost, hall,
    List.nil_append, List.append_nil]

/-- The namespaces that are scanned before this one. -/
def scannedBefore (s : Cluster) (ns : String) : List String :=
  ((flaggedNamespaces s).takeWhile (· ≠ ns)).filter (· ∉ systemNamespaces)

section
variable [Apimachinery]

theorem enriched_inj {s : Cluster} {clusterID : String}
    {managed managed' : List String} {w : Workload} :
    enriched s (discovered clusterID managed w) =
        enriched s (discovered clusterID managed' w) ↔
      discovered clusterID managed w = discovered clusterID managed' w := by
  constructor
  · intro h
    have hcontainers := congrArg DiscoveredWorkload.containers h
    simpa [discovered, enriched] using hcontainers
  · intro h
    rw [h]

/-- What the API shows of a namespace when it is asked for all of them. -/
theorem listedIn_all_filter {clusterID ns : String} {s : Cluster}
    (hns : ns ∉ systemNamespaces) (hflags : ns ∈ flaggedNamespaces s) :
    (listedIn clusterID "" s).filter (·.ns = ns) =
      ((workloadsIn s ns).map (discovered clusterID
        ((scannedBefore s ns).flatMap (managedConfigMaps s) ++
          managedConfigMaps s ns))).map (enriched s) := by
  have hnodup : (flaggedNamespaces s).Nodup :=
    (List.mergeSort_perm _ _).nodup_iff.mpr (List.nodup_dedup _)
  obtain ⟨pre, post, hsplit, hpre⟩ := List.eq_append_cons_of_mem hflags
  have hpost : ns ∉ post := by
    rw [hsplit] at hnodup
    exact (List.nodup_cons.mp hnodup.of_append_right).1
  have hbefore : scannedBefore s ns = pre.filter (· ∉ systemNamespaces) := by
    have hall : ∀ b ∈ pre, decide (b ≠ ns) = true := by
      intro b hb
      exact decide_eq_true fun h => hpre (h ▸ hb)
    rw [scannedBefore, hsplit, List.takeWhile_append_of_pos hall]
    simp
  have hremembered : remembered s [] pre =
      (scannedBefore s ns).flatMap (managedConfigMaps s) := by
    rw [remembered, hbefore, List.nil_append]
  rw [listedIn_all, List.filter_map]
  show ((scanned clusterID s [] (flaggedNamespaces s)).filter (·.ns = ns)).map
    (enriched s) = _
  rw [hsplit, filter_scanned hpre hpost hns, hremembered]

/-- With a filter and without one the API shows a namespace alike. -/
theorem listedIn_filter_iff {clusterID ns : String} {s : Cluster}
    (hempty : ns ≠ "") (hns : ns ∉ systemNamespaces)
    (hflags : ns ∈ flaggedNamespaces s) :
    (listedIn clusterID "" s).filter (·.ns = ns) = listedIn clusterID ns s ↔
      ∀ before ∈ scannedBefore s ns, Apart s before ns := by
  rw [listedIn_all_filter hns hflags, listedIn_of_flagged hempty hflags,
    List.map_map, List.map_map, List.map_inj_left, ← keepsOut_flatMap,
    ← map_discovered_eq_iff clusterID, List.map_inj_left]
  simp only [Function.comp, enriched_inj]

theorem listedIn_filter_of_not_flagged {clusterID ns : String} {s : Cluster}
    (hempty : ns ≠ "") (hflags : ns ∉ flaggedNamespaces s) :
    (listedIn clusterID "" s).filter (·.ns = ns) = listedIn clusterID ns s := by
  rw [listedIn_of_not_flagged hempty hflags, List.filter_eq_nil_iff, listedIn_all]
  intro wl hwl
  obtain ⟨found, hfound, rfl⟩ := List.mem_map.mp hwl
  have hmem : found.ns ∈ flaggedNamespaces s := ns_of_scanned hfound
  simp only [decide_eq_true_eq]
  intro h
  exact hflags (h ▸ hmem)

/-- A scan of many namespaces is the scans of each exactly if they are apart,
each from those before it; and the API shows a namespace alike with a filter
and without one exactly if it is apart from those scanned before. -/
theorem scan_local_iff (clusterID : String) (s : Cluster) :
    (∀ nss : List String, (∀ ns ∈ nss, ns ∉ systemNamespaces) →
      (((scanCluster clusterID nss).exec KubeCall.serve s).2.1 =
          nss.flatMap (freshScan clusterID s) ↔ nss.Pairwise (Apart s))) ∧
    ∀ ns, ns ≠ "" → ns ∉ systemNamespaces →
      ((listedIn clusterID "" s).filter (·.ns = ns) = listedIn clusterID ns s ↔
        (ns ∈ flaggedNamespaces s →
          ∀ before ∈ scannedBefore s ns, Apart s before ns)) := by
  constructor
  · intro nss hnss
    rw [exec_scanCluster, scanned_eq_iff hnss]
    refine and_iff_right fun ns _ w _ name _ hname => ?_
    exact absurd hname List.not_mem_nil
  · intro ns hempty hns
    by_cases hflags : ns ∈ flaggedNamespaces s
    · rw [listedIn_filter_iff hempty hns hflags]
      exact ⟨fun h _ => h, fun h => h hflags⟩
    · exact ⟨fun _ h => absurd h hflags,
        fun _ => listedIn_filter_of_not_flagged hempty hflags⟩

end

/-! Two teams use one name. In `team-a` the ConfigMap is the operator's, in
`team-b` it is not. -/

def teamFlag (ns : String) : FeatureFlag where
  metadata := { name := "dark-mode", ns := ns }
  spec := { type := .boolean, defaultValue := "true" }

def teamsCluster : Cluster where
  flags := (VTable.empty.write (teamFlag "team-a")).write (teamFlag "team-b")
  deployments := VTable.empty.write
    { metadata := { name := "web", ns := "team-b" }
      template := { containers := [{
        name := "main"
        envFrom := [{ configMapRef := some "settings" }] }] } }
  configMaps :=
    (VTable.empty.write
      { metadata := {
          name := "settings"
          ns := "team-a"
          labels := GoMap.single "app.kubernetes.io/managed-by" "vexil" } }).write
      { metadata := { name := "settings", ns := "team-b" } }

/-- What `team-b` shows depends on what was scanned before it. -/
theorem scan_remembers_names :
    ["team-a", "team-b"].Nodup ∧
    (∀ ns ∈ ["team-a", "team-b"], ns ∉ systemNamespaces) ∧
    ((scanCluster "prod" ["team-a", "team-b"]).exec KubeCall.serve
        teamsCluster).2.1 ≠
      ["team-a", "team-b"].flatMap (freshScan "prod" teamsCluster) := by
  decide +kernel

theorem scan_local_iff_sample :
    letI := labelSelectors
    ["team-b", "team-a"].Pairwise (Apart teamsCluster) ∧
    ((scanCluster "prod" ["team-b", "team-a"]).exec KubeCall.serve
        teamsCluster).2.1 =
      ["team-b", "team-a"].flatMap (freshScan "prod" teamsCluster) := by
  let := labelSelectors
  have hapart : ["team-b", "team-a"].Pairwise (Apart teamsCluster) := by
    decide +kernel
  exact ⟨hapart, ((scan_local_iff "prod" teamsCluster).1 _ (by decide)).mpr
    hapart⟩

end Vexil.Server
