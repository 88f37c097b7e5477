import Vexil.Proofs.Pipeline

/-!
# When the SDKs read the latest edit

Two signals say that an edit has arrived: the status of the flag has observed
its generation, and the sidecar has an open watch with nothing left in it. Where
both are given, all four SDKs read the declaration as it stands, field by field;
Go does as long as its cache has nothing else than the sidecar. Neither signal
is enough alone.

The first signal can be trusted since a status is only stored for the version it
was computed from. The second can be as long as no flag disappears between two
watches, which is the condition on opening one that the sidecar's own invariant
has.
-/

namespace Vexil.Sidecar

open Vexil.Lib Vexil.Kube Vexil.Operator Vexil.Sdk

/-- The flag as its declaration says it. -/
def declared (f : FeatureFlag) : Flag where
  name := f.metadata.name
  type := f.spec.type.text
  value := f.spec.defaultValue
  disabled := f.spec.disabled

/-- The operator has seen to the latest edit of the flag. -/
def Observed (f : FeatureFlag) : Prop :=
  f.status.observedGeneration = f.metadata.generation

instance : DecidablePred Observed :=
  fun f => inferInstanceAs (Decidable (_ = f.metadata.generation))

theorem decode_observed {f : FeatureFlag} (h : Honest f) (hobs : Observed f) :
    decodeFlag (resolveFlag f) = declared f := by
  obtain ⟨_, _, hvalue⟩ := h.right hobs
  unfold decodeFlag declared
  rw [hvalue]
  rfl

section
variable {ι : Type} {ns : String} {s₀ : Cluster} {ls : List (PipelineLabel ι)}
  {st st' : Watcher}

/-- The condition at the opening of a watch. -/
def NoneGone (ns : String) (st : Watcher) : PipelineLabel ι → Prop
  | .cluster _ => True
  | .sidecar e => NothingGone ns st e

/-- A step of the cluster sends what keeps the map looking ahead. -/
theorem looksAhead_cluster {l : SystemLabel ι} (hI : LooksAhead ns st)
    (hstep : PipelineStep ns st (.cluster l) st') : LooksAhead ns st' := by
  obtain ⟨s', hs', rfl⟩ := hstep
  intro pending' hphase
  unfold Watcher.observe at hphase ⊢
  dsimp only at hphase ⊢
  split at hphase
  · next pending hp =>
      obtain rfl := WatchPhase.connected.inj hphase
      rw [List.foldl_append]
      cases hkey : stepFlagKey l with
      | none =>
          intro name
          rw [resolvedAt, flags_step_ne hs' (by simp [hkey])]
          exact hI pending hp name
      | some k =>
          refine mirrors_change (hI pending hp) fun k' hk' => ?_
          refine flags_step_ne hs' fun heq => ?_
          rw [hkey] at heq
          exact hk' (Option.some.inj heq).symm
  · next hne => exact absurd hphase (hne _)

theorem looksAhead_pipeline {l : PipelineLabel ι} (hI : LooksAhead ns st)
    (h : Restrict (PipelineStep ns) (NoneGone ns) st l st') :
    LooksAhead ns st' := by
  obtain ⟨hstep, hgone⟩ := h
  cases l with
  | cluster l => exact looksAhead_cluster hI hstep
  | sidecar e => exact looksAhead_step hI ⟨hstep.2, hgone⟩

variable [Apimachinery] [DecidableEq ι] {nows : ι → Nat} {reqs : ι → ObjectKey}

/-- One step of the cluster keeps all statuses honest. -/
theorem allHonest_step {s s' : Cluster} {ls : List (SystemLabel ι)}
    {l : SystemLabel ι}
    (hprogs : Interleaved (fun i => reconcile (nows i) (reqs i)) (ls ++ [l]))
    (hother : ∀ f, l ≠ .other (.putFlagStatus f))
    (hrun : Run SystemStep s₀ ls s) (hstep : SystemStep s l s')
    (h : AllHonest s) : AllHonest s' := by
  obtain hsame | hwrite | ⟨w, rfl, rfl⟩ := flags_step hprogs hrun hstep
  · intro f hf
    rw [hsame] at hf
    exact h f hf
  · obtain ⟨k, f, now, phase, count, hf, hphase, rfl⟩ := hwrite
    have hpos := (honest_stored h hf).generation_pos
    exact h.write (Honest.newStatus hpos hphase)
  · exact honest_other h fun f hw => hother f (congrArg _ hw)

theorem allHonest_run
    (hprogs : Interleaved (fun i => reconcile (nows i) (reqs i))
      (clusterLabels ls))
    (hothers : ∀ f, .cluster (.other (.putFlagStatus f)) ∉ ls)
    (hinit : ∀ f ∈ s₀.flags.rows.items,
      0 < f.metadata.generation ∧ f.status = {})
    (hrun : Run (PipelineStep ns) (Watcher.start s₀) ls st) :
    AllHonest st.cluster := by
  have hcluster : Run SystemStep s₀ (clusterLabels ls) st.cluster :=
    cluster_run hrun
  have hothers' : ∀ f, .other (.putFlagStatus f) ∉ clusterLabels ls := by
    intro f hf
    obtain ⟨l, hl, heq⟩ := List.mem_filterMap.mp hf
    cases l with
    | cluster l =>
        obtain rfl := Option.some.inj heq
        exact hothers f hl
    | sidecar e => cases heq
  refine Run.reverse_induction (P := fun ls s =>
    Interleaved (fun i => reconcile (nows i) (reqs i)) ls →
    (∀ f, .other (.putFlagStatus f) ∉ ls) → AllHonest s)
    ?_ ?_ hcluster hprogs hothers'
  · intro _ _ f hf
    exact .of_empty (hinit f hf).1 (hinit f hf).2
  · intro es m l s' hpre ih hstep hprogs hothers
    have hm : AllHonest m := ih hprogs.of_append fun f hf =>
      hothers f (List.mem_append_left _ hf)
    refine allHonest_step hprogs (fun f hl => hothers f ?_) hpre hstep hm
    rw [hl]
    exact List.mem_append_right _ (List.mem_singleton_self _)

/-- In every run of reconciles, edits and the sidecar in which each watch is
opened while all flags in the map still exist: whenever a watch is open and its
events are handled, each SDK that asks for a flag whose latest edit the operator
has observed reads the declaration as it stands, and none for a name without a
flag, as long as Go has nothing else in its cache than the sidecar has; and when
all flags are observed, the declarations are what each lists. -/
theorem reads_are_current (nows : ι → Nat) (reqs : ι → ObjectKey)
    {order : List ResolvedFlag}
    (hprogs : Interleaved (fun i => reconcile (nows i) (reqs i))
      (clusterLabels ls))
    (hothers : ∀ f, .cluster (.other (.putFlagStatus f)) ∉ ls)
    (hinit : ∀ f ∈ s₀.flags.rows.items,
      0 < f.metadata.generation ∧ f.status = {})
    (hrun : Run (Restrict (PipelineStep ns) (NoneGone ns)) (Watcher.start s₀)
      ls st) (hdone : st.phase = .connected [])
    (horder : st.store.Ranges order) :
    (∀ name, ObjectName name → name ≠ "stream" → ∀ cache : GoMap Flag,
      (∀ g, cache.lookup name = some g →
        (st.store.get name).map decodeFlag = some g) →
      ∀ r ∈ sidecarReads cache order st.store name,
        (st.cluster.flags.get? ⟨ns, name⟩ = none → r = none) ∧
        ∀ f, st.cluster.flags.get? ⟨ns, name⟩ = some f → Observed f →
          r = some (declared f)) ∧
    ((∀ f ∈ flagsIn ns st.cluster, Observed f) →
      ∀ r ∈ sidecarListings order st.store, ∃ fs, r = some fs ∧
        ∀ g, g ∈ fs ↔ ∃ f ∈ flagsIn ns st.cluster, g = declared f) := by
  have hhonest : AllHonest st.cluster :=
    allHonest_run hprogs hothers hinit hrun.unrestrict
  have hmirror : Mirrors ns st.store st.cluster :=
    hrun.invariant (fun _ _ _ hI hstep => looksAhead_pipeline hI hstep)
      (fun _ h => nomatch h) [] hdone
  constructor
  · intro name hname hstream cache hcache r hr
    have hserved : r = (st.store.get name).map decodeFlag := by
      rcases mem_sidecarReads hr with ⟨g, hcached, rfl⟩ | hr
      · exact (hcache g hcached).symm
      · rw [lookups_eq hname r hr, servedFlag, if_neg hstream]
    rw [hmirror name, resolvedAt] at hserved
    constructor
    · intro hnone
      rw [hserved, hnone]
      rfl
    · intro f hf hobs
      rw [hserved, hf]
      exact congrArg some (decode_observed (honest_stored hhonest hf) hobs)
  · intro hobs r hr
    have hfs := listings_eq r hr
    rw [hfs] at hr
    refine ⟨_, hfs, fun g => (stored_of_listing horder hr).trans ?_⟩
    constructor
    · rintro ⟨name, r, hget, rfl⟩
      rw [hmirror name, resolvedAt, Option.map_eq_some_iff] at hget
      obtain ⟨f, hf, rfl⟩ := hget
      have hmem : f ∈ flagsIn ns st.cluster := by
        rw [mem_flagsIn, name_of_get? hf]
        exact hf
      have hfh := honest_stored hhonest hf
      exact ⟨f, hmem, decode_observed hfh (hobs f hmem)⟩
    · rintro ⟨f, hmem, rfl⟩
      have hf := mem_flagsIn.mp hmem
      have hfh := honest_stored hhonest hf
      refine ⟨f.metadata.name, resolveFlag f, ?_,
        (decode_observed hfh (hobs f hmem)).symm⟩
      rw [hmirror, resolvedAt, hf]
      rfl

end

/-! ## Such a moment can be reached -/

section
variable {ι : Type} (ns : String) {ls : List (SystemLabel ι)} {st : Watcher}

/-- An open watch stays open while the cluster is written. -/
theorem watched_run {s' : Cluster} (h : Run SystemStep st.cluster ls s')
    {pending : List WatchEvent} (hp : st.phase = .connected pending) :
    ∃ st' pending', Run (Restrict (PipelineStep ns) (NoneGone ns)) st
        (ls.map .cluster) st' ∧
      st'.cluster = s' ∧ st'.phase = .connected pending' := by
  induction ls generalizing st pending with
  | nil => exact ⟨st, pending, .nil, run_nil.mp h, hp⟩
  | cons l ls ih =>
      obtain ⟨m, hstep, hrest⟩ := run_cons.mp h
      have hphase : (st.observe ns (stepFlagKey l) m).phase = .connected
          (pending ++ (stepFlagKey l).elim [] fun k =>
            changeOf ns k st.cluster m) := by
        simp [Watcher.observe, hp]
      have hrest : Run SystemStep (st.observe ns (stepFlagKey l) m).cluster ls
          s' := hrest
      obtain ⟨st', pending', hrun, hcluster, hp'⟩ := ih hrest hphase
      exact ⟨st', pending', .cons ⟨⟨m, hstep, rfl⟩, trivial⟩ hrun, hcluster,
        hp'⟩

/-- The events of an open watch can all be handled. -/
theorem drain {pending : List WatchEvent} (hp : st.phase = .connected pending) :
    ∃ st', Run (Restrict (PipelineStep ns) (NoneGone ns)) st
        (pending.map fun _ => (.sidecar .deliver : PipelineLabel ι)) st' ∧
      st'.cluster = st.cluster ∧ st'.phase = .connected [] := by
  induction pending generalizing st with
  | nil => exact ⟨st, .nil, rfl, hp⟩
  | cons e pending ih =>
      have hphase : ({ st with
          store := st.store.handle e
          phase := .connected pending } : Watcher).phase =
            .connected pending := rfl
      obtain ⟨st', hrun, hcluster, hdone⟩ := ih hphase
      refine ⟨st', .cons ⟨⟨by simp, ?_⟩, trivial⟩ hrun, hcluster, hdone⟩
      simp [WatcherNext, Watcher.next, hp]

end

/-! The watch is open on an empty namespace; the flag is declared and
reconciled; then the events are handled. -/

def watchingNothing : Watcher where
  cluster := {}
  phase := .connected []

def openWatch : List (PipelineLabel Unit) :=
  [.sidecar .list, .sidecar .load, .sidecar (.connect [])]

theorem openWatch_run : Run
    (Restrict (PipelineStep "default") (NoneGone "default")) (Watcher.start {})
    openWatch watchingNothing := by
  have hgone : ∀ name, ({} : FlagStore).get name ≠ none →
      ({} : Cluster).flags.get? ⟨"default", name⟩ ≠ none :=
    fun name h => absurd (Finmap.lookup_empty name) h
  exact .cons ⟨⟨by simp, rfl⟩, trivial⟩ (.cons ⟨⟨by simp, rfl⟩, trivial⟩
    (.cons ⟨⟨by simp, rfl⟩, hgone⟩ .nil))

theorem stored_sample : ∃ f,
    reconciledSample.2.2.flags.get? ⟨"default", "dark-mode"⟩ = some f ∧
      Observed f ∧ declared f = ⟨"dark-mode", "boolean", "true", false⟩ := by
  have hsome : (reconciledSample.2.2.flags.get?
      ⟨"default", "dark-mode"⟩).isSome := by decide +kernel
  refine ⟨_, (Option.some_get hsome).symm, ?_⟩
  decide +kernel +revert

theorem reads_are_current_sample : ∃ ls st order,
    Run (PipelineStep (ι := Unit) "default") (Watcher.start {}) ls st ∧
      ∀ r ∈ sidecarReads ∅ order st.store "dark-mode",
        r = some ⟨"dark-mode", "boolean", "true", false⟩ := by
  let := labelSelectors
  obtain ⟨hprogs, hcluster⟩ := declareReconcile_run
  have hcluster : Run SystemStep watchingNothing.cluster declareReconcile
      reconciledSample.2.2 := hcluster
  obtain ⟨m, pending, hwatched, hm, hp⟩ :=
    watched_run "default" hcluster rfl
  obtain ⟨st, hdrain, hst, hdone⟩ := drain (ι := Unit) "default" hp
  have hrun := run_append.mpr ⟨_, openWatch_run, run_append.mpr
    ⟨_, hwatched, hdrain⟩⟩
  have hinit : ∀ f ∈ ({} : Cluster).flags.rows.items,
      0 < f.metadata.generation ∧ f.status = {} := fun _ hf => nomatch hf
  have horder : st.store.Ranges st.store.all.toList :=
    Multiset.coe_toList st.store.all
  obtain ⟨f, hf, hobs, hdecl⟩ := stored_sample
  rw [← hm, ← hst] at hf
  refine ⟨_, st, st.store.all.toList, hrun.unrestrict, fun r hr => ?_⟩
  rw [← hdecl]
  refine ((reads_are_current (fun _ => 7)
      (fun _ => ⟨"default", "dark-mode"⟩) ?_ ?_ hinit hrun hdone horder).1
    "dark-mode" (by decide) (by decide) ∅ nofun r hr).2 f hf hobs
  · have hlabels : clusterLabels (openWatch ++ (declareReconcile.map .cluster ++
        pending.map fun _ => .sidecar .deliver)) = declareReconcile := by
      simp [clusterLabels, openWatch, List.filterMap_append,
        List.filterMap_map]
    rw [hlabels]
    exact hprogs
  · simp [openWatch, declareReconcile, ownAll]

end Vexil.Sidecar
