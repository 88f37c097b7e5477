import Vexil.Server.Workloads

/-!
# What the workloads API shows

The scanner and the handlers over it, when every call is answered: functions of
the cluster. The three kinds of workload are scanned alike, so a `Workload` is
what they have in common, and a scan is a `map` over the workloads of a
namespace. Two things decide what it shows of one of them: the object itself,
and the ConfigMaps the scanner takes for the operator's.

`matchingFlags` is filled in afterwards, from the flags of the namespace alone,
whatever else was scanned.
-/

namespace Vexil.Server

open Vexil.Lib Vexil.Kube

/-! ## Workloads -/

/-- A Deployment, StatefulSet or DaemonSet, as far as it is scanned. -/
structure Workload where
  kind : String
  metadata : ObjectMeta
  replicas : Int
  template : PodTemplate
  deriving DecidableEq

def ofDeployment (d : Deployment) : Workload where
  kind := "Deployment"
  metadata := d.metadata
  replicas := d.replicas.getD 0
  template := d.template

def ofStatefulSet (ss : StatefulSet) : Workload where
  kind := "StatefulSet"
  metadata := ss.metadata
  replicas := ss.replicas.getD 0
  template := ss.template

def ofDaemonSet (ds : DaemonSet) : Workload where
  kind := "DaemonSet"
  metadata := ds.metadata
  replicas := ds.desiredNumberScheduled
  template := ds.template

/-- All workloads of a namespace, in the order they are scanned. -/
def workloadsIn (s : Cluster) (ns : String) : List Workload :=
  (s.deployments.rows.items.filter fun d => d.metadata.ns = ns).map
      ofDeployment ++
    (s.statefulSets.rows.items.filter fun d => d.metadata.ns = ns).map
      ofStatefulSet ++
    (s.daemonSets.rows.items.filter fun d => d.metadata.ns = ns).map ofDaemonSet

theorem ns_of_mem {s : Cluster} {ns : String} {w : Workload}
    (hw : w ∈ workloadsIn s ns) : w.metadata.ns = ns := by
  rw [workloadsIn, List.mem_append, List.mem_append] at hw
  simp only [List.mem_map, List.mem_filter, decide_eq_true_eq] at hw
  rcases hw with (⟨d, ⟨_, hns⟩, rfl⟩ | ⟨d, ⟨_, hns⟩, rfl⟩) | ⟨d, ⟨_, hns⟩, rfl⟩
  · exact hns
  · exact hns
  · exact hns

/-- What a scan reports of a workload. -/
def discovered (clusterID : String) (managed : List String) (w : Workload) :
    DiscoveredWorkload where
  cluster := clusterID
  ns := w.metadata.ns
  name := w.metadata.name
  kind := w.kind
  replicas := w.replicas
  labels := w.metadata.labels
  containers := extractContainersSafe managed w.template.containers

/-- The operator's ConfigMaps in a namespace. -/
def managedConfigMaps (s : Cluster) (ns : String) : List String :=
  (s.configMaps.rows.items.filter fun c =>
    c.metadata.ns = ns ∧ vexilManaged c.metadata.labels).map fun cm =>
      cm.metadata.name

/-! ## Scans -/

theorem exec_scanWorkloads (clusterID : String) (managed : List String)
    (ns : String) (s : Cluster) :
    ((scanWorkloads clusterID managed ns).exec KubeCall.serve s).2 =
      (.ok ((workloadsIn s ns).map (discovered clusterID managed)), s) := by
  simp only [scanWorkloads, Prog.exec, KubeCall.serve, workloadsIn,
    List.map_append, List.map_map, and_true]
  rfl

theorem exec_scanNamespace (clusterID : String) (managed : List String)
    (ns : String) (s : Cluster) :
    ((scanNamespace clusterID managed ns).exec KubeCall.serve s).2 =
      ((.ok ((workloadsIn s ns).map (discovered clusterID
          (managed ++ managedConfigMaps s ns))),
        managed ++ managedConfigMaps s ns), s) := by
  rw [scanNamespace, Prog.exec_bind, Prog.exec_map]
  have hload : ((loadVexilConfigMaps managed ns).exec KubeCall.serve s).2 =
      (managed ++ managedConfigMaps s ns, s) := rfl
  rw [hload, exec_scanWorkloads]

/-- The loop of `ScanCluster`: what earlier namespaces taught the scanner is
used in later ones. -/
def scanned (clusterID : String) (s : Cluster) :
    List String → List String → List DiscoveredWorkload
  | _, [] => []
  | managed, ns :: rest =>
      if ns ∈ systemNamespaces then scanned clusterID s managed rest
      else
        (workloadsIn s ns).map
            (discovered clusterID (managed ++ managedConfigMaps s ns)) ++
          scanned clusterID s (managed ++ managedConfigMaps s ns) rest

theorem exec_scanNamespaces (clusterID : String) (managed nss : List String)
    (s : Cluster) :
    ((scanNamespaces clusterID managed nss).exec KubeCall.serve s).2 =
      (scanned clusterID s managed nss, s) := by
  induction nss generalizing managed with
  | nil => rfl
  | cons ns rest ih =>
      rw [scanNamespaces, scanned]
      split
      · exact ih managed
      · rw [Prog.exec_bind, exec_scanNamespace, Prog.exec_map, ih]

theorem exec_scanCluster (clusterID : String) (nss : List String)
    (s : Cluster) : ((scanCluster clusterID nss).exec KubeCall.serve s).2 =
      (scanned clusterID s [] nss, s) := exec_scanNamespaces clusterID [] nss s

theorem ns_of_scanned {clusterID : String} {s : Cluster}
    {managed nss : List String} {wl : DiscoveredWorkload}
    (hwl : wl ∈ scanned clusterID s managed nss) : wl.ns ∈ nss := by
  induction nss generalizing managed with
  | nil => exact absurd hwl List.not_mem_nil
  | cons ns rest ih =>
      rw [scanned] at hwl
      split at hwl
      · exact .tail _ (ih hwl)
      · rcases List.mem_append.mp hwl with h | h
        · obtain ⟨w, hw, rfl⟩ := List.mem_map.mp h
          exact ns_of_mem hw ▸ List.mem_cons_self
        · exact .tail _ (ih h)

/-! ## The flags of a workload -/

namespace WorkloadHandler

/-- `namespacesWithFlags`, of a cluster. -/
def flaggedNamespaces (s : Cluster) : List String :=
  (s.flags.rows.items.map fun f => f.metadata.ns).dedup.mergeSort

theorem exec_allowedNamespaces (s : Cluster) :
    (allowedNamespaces.exec KubeCall.serve s).2 = (flaggedNamespaces s, s) := by
  rw [allowedNamespaces, Prog.exec_map]
  simp only [namespacesWithFlags, Prog.exec, KubeCall.serve, Option.all_none,
    List.filter_true]
  rfl

section
variable [Apimachinery]

def selectorsIn (s : Cluster) (ns : String) : List FlagSelector :=
  (s.flags.rows.items.filter fun f => ns = f.metadata.ns).filterMap flagSelector

theorem exec_flagSelectors (nss : List String) (s : Cluster) :
    ((flagSelectors nss).exec KubeCall.serve s).2 =
      (nss.flatMap (selectorsIn s), s) := by
  induction nss with
  | nil => rfl
  | cons ns rest ih =>
      show (((flagSelectors rest).map fun selectors =>
        selectorsIn s ns ++ selectors).exec KubeCall.serve s).2 = _
      rw [Prog.exec_map, ih]
      rfl

theorem flagSelector_eq_some {f : FeatureFlag} {fs : FlagSelector} :
    flagSelector f = some fs ↔
      ∃ ls sel, f.spec.delivery.bind deliverySelector = some ls ∧
        Apimachinery.labelSelectorAsSelector (some ls) = .ok sel ∧
        fs = ⟨f.metadata.name, f.metadata.ns, sel⟩ := by
  unfold flagSelector
  constructor
  · intro h
    split at h
    · cases h
    · next ls hls =>
        split at h
        · cases h
        · next sel hsel =>
            cases h
            exact ⟨ls, sel, hls, hsel, rfl⟩
  · rintro ⟨ls, sel, hls, hsel, rfl⟩
    rw [hls]
    dsimp only
    rw [hsel]

theorem ns_of_flagSelector {f : FeatureFlag} {fs : FlagSelector}
    (h : flagSelector f = some fs) : fs.ns = f.metadata.ns := by
  obtain ⟨_, _, _, _, rfl⟩ := flagSelector_eq_some.mp h
  rfl

theorem name_of_flagSelector {f : FeatureFlag} {fs : FlagSelector}
    (h : flagSelector f = some fs) : fs.name = f.metadata.name := by
  obtain ⟨_, _, _, _, rfl⟩ := flagSelector_eq_some.mp h
  rfl

theorem ns_of_selectorsIn {s : Cluster} {ns : String} {fs : FlagSelector}
    (h : fs ∈ selectorsIn s ns) : fs.ns = ns := by
  obtain ⟨f, hf, hfs⟩ := List.mem_filterMap.mp h
  have hns : ns = f.metadata.ns := by simpa using (List.mem_filter.mp hf).2
  rw [ns_of_flagSelector hfs, hns]

/-- `matchingFlags` of a workload that has been found. -/
def enriched (s : Cluster) (wl : DiscoveredWorkload) : DiscoveredWorkload :=
  { wl with
    matchingFlags := wl.matchingFlags ++
      ((selectorsIn s wl.ns).filter fun fs => fs.selector wl.labels).map
        FlagSelector.name }

omit [Apimachinery] in
/-- Of the selectors of several namespaces those of the workload's own count. -/
theorem matchingFlags_flatMap {g : String → List FlagSelector}
    (hg : ∀ ns, ∀ fs ∈ g ns, fs.ns = ns) {nss : List String}
    {wl : DiscoveredWorkload} (hnodup : nss.Nodup) (hns : wl.ns ∈ nss) :
    matchingFlags (nss.flatMap g) wl =
      ((g wl.ns).filter fun fs => fs.selector wl.labels).map
        FlagSelector.name := by
  have hother : ∀ ns, ns ≠ wl.ns → ((g ns).filter fun fs =>
      fs.ns = wl.ns ∧ fs.selector wl.labels) = [] := by
    intro ns hne
    rw [List.filter_eq_nil_iff]
    intro fs hfs
    simp [hg ns fs hfs, hne]
  have hown : ((g wl.ns).filter fun fs =>
      fs.ns = wl.ns ∧ fs.selector wl.labels) =
      (g wl.ns).filter fun fs => fs.selector wl.labels := by
    refine List.filter_congr fun fs hfs => ?_
    simp [hg wl.ns fs hfs]
  rw [matchingFlags, List.filter_flatMap]
  congr 1
  induction nss with
  | nil => exact absurd hns List.not_mem_nil
  | cons ns rest ih =>
      obtain ⟨hnot, hnodup⟩ := List.nodup_cons.mp hnodup
      rw [List.flatMap_cons]
      by_cases hne : ns = wl.ns
      · subst hne
        have hrest : (rest.flatMap fun ns => (g ns).filter fun fs =>
            fs.ns = wl.ns ∧ fs.selector wl.labels) = [] := by
          rw [List.flatMap_eq_nil_iff]
          intro ns hmem
          exact hother ns fun h => hnot (h ▸ hmem)
        rw [hown, hrest, List.append_nil]
      · rw [hother ns hne, List.nil_append]
        exact ih hnodup ((List.mem_cons.mp hns).resolve_left (Ne.symm hne))

theorem matchingFlags_eq {s : Cluster} {nss : List String}
    {wl : DiscoveredWorkload} (hnodup : nss.Nodup) (hns : wl.ns ∈ nss) :
    matchingFlags (nss.flatMap (selectorsIn s)) wl =
      ((selectorsIn s wl.ns).filter fun fs => fs.selector wl.labels).map
        FlagSelector.name :=
  matchingFlags_flatMap (fun _ _ => ns_of_selectorsIn) hnodup hns

theorem exec_enrichWithMatchingFlags (workloads : List DiscoveredWorkload)
    (s : Cluster) :
    ((enrichWithMatchingFlags workloads).exec KubeCall.serve s).2 =
      (workloads.map (enriched s), s) := by
  rw [enrichWithMatchingFlags_eq, enrichInOrder, Prog.exec_map,
    exec_flagSelectors]
  congr 1
  refine List.map_congr_left fun wl hwl => ?_
  have hns : wl.ns ∈ (workloads.map DiscoveredWorkload.ns).dedup :=
    List.mem_dedup.mpr (List.mem_map_of_mem hwl)
  rw [enriched, matchingFlags_eq (List.nodup_dedup _) hns]

/-- The workloads of a response. -/
def listed (resp : Response) : List DiscoveredWorkload :=
  match resp.body with
  | .workloads ws => ws
  | _ => []

/-- `GET /clusters/{id}/workloads?namespace=ns` on a cluster that answers; `""`
is no filter. -/
def listedIn (clusterID ns : String) (s : Cluster) : List DiscoveredWorkload :=
  listed ((listWorkloads clusterID ns).exec KubeCall.serve s).2.1

theorem listedIn_all (clusterID : String) (s : Cluster) :
    listedIn clusterID "" s =
      (scanned clusterID s [] (flaggedNamespaces s)).map (enriched s) := by
  rw [listedIn, listWorkloads, Prog.exec_bind, exec_allowedNamespaces]
  dsimp only
  rw [if_pos rfl, Prog.exec_bind, exec_scanCluster, Prog.exec_map,
    exec_enrichWithMatchingFlags]
  rfl

theorem listedIn_of_flagged {clusterID ns : String} {s : Cluster}
    (hns : ns ≠ "") (hflags : ns ∈ flaggedNamespaces s) :
    listedIn clusterID ns s =
      ((workloadsIn s ns).map
        (discovered clusterID (managedConfigMaps s ns))).map (enriched s) := by
  rw [listedIn, listWorkloads, Prog.exec_bind, exec_allowedNamespaces]
  dsimp only
  rw [if_neg hns, if_neg (not_not.mpr hflags), Prog.exec_bind,
    exec_scanNamespace]
  dsimp only
  rw [Prog.exec_map, exec_enrichWithMatchingFlags]
  rfl

theorem listedIn_of_not_flagged {clusterID ns : String} {s : Cluster}
    (hns : ns ≠ "") (hflags : ns ∉ flaggedNamespaces s) :
    listedIn clusterID ns s = [] := by
  rw [listedIn, listWorkloads, Prog.exec_bind, exec_allowedNamespaces]
  dsimp only
  rw [if_neg hns, if_pos hflags]
  rfl

end

end WorkloadHandler

end Vexil.Server
