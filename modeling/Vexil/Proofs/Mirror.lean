import Vexil.Sidecar.Watcher

/-!
# The sidecar's map and the cluster

The map is changed by events only, and a new watch replays what exists. So a
flag that was created or edited while no watch was open comes with the next one,
but for a flag that was deleted then no event is ever sent, and the sidecar goes
on serving it.

The invariant looks ahead: while a watch is open, the map that handling all
pending events would give is the one the cluster asks for. Each later change adds
the event that restores it. What is left is the moment of opening a watch, and
there it holds if and only if every flag in the map still exists.
-/

namespace Vexil.Sidecar

open Vexil.Lib Vexil.Kube

/-- What the sidecar should serve. -/
def resolvedAt (ns : String) (s : Cluster) (name : String) :
    Option ResolvedFlag :=
  (s.flags.get? ⟨ns, name⟩).map resolveFlag

def Mirrors (ns : String) (store : FlagStore) (s : Cluster) : Prop :=
  ∀ name, store.get name = resolvedAt ns s name

/-- The condition at the opening of a watch: every flag in the map exists. -/
def NothingGone (ns : String) (st : Watcher) : WatcherStep → Prop
  | .connect _ => ∀ name, st.store.get name ≠ none →
      st.cluster.flags.get? ⟨ns, name⟩ ≠ none
  | _ => True

/-! ## The events of one change -/

theorem get_handle (store : FlagStore) (e : WatchEvent) (name : String) :
    (store.handle e).get name =
      match e with
      | .added f | .modified f =>
          if name = f.metadata.name then some (resolveFlag f)
          else store.get name
      | .deleted f =>
          if name = f.metadata.name then none else store.get name := by
  cases e with
  | added f => exact FlagStore.get_set store (resolveFlag f) name
  | modified f => exact FlagStore.get_set store (resolveFlag f) name
  | deleted f => exact FlagStore.get_delete store f.metadata.name name

theorem name_of_get? {s : Cluster} {ns name : String} {f : FeatureFlag}
    (h : s.flags.get? ⟨ns, name⟩ = some f) : f.metadata.name = name :=
  congrArg ObjectKey.name (VTable.key_of_get? h)

/-- Handling the event of a change carries a mirror of the old state over to
the new one. -/
theorem mirrors_change {ns : String} {store : FlagStore} {s s' : Cluster}
    {k : ObjectKey} (h : Mirrors ns store s)
    (hother : ∀ k', k' ≠ k → s'.flags.get? k' = s.flags.get? k') :
    Mirrors ns ((changeOf ns k s s').foldl FlagStore.handle store) s' := by
  intro name
  by_cases hk : k = ⟨ns, name⟩
  · subst hk
    have hname := h name
    unfold resolvedAt at hname ⊢
    unfold changeOf
    rw [if_pos rfl]
    cases hb : s.flags.get? ⟨ns, name⟩ with
    | none =>
        rw [hb] at hname
        cases ha : s'.flags.get? ⟨ns, name⟩ with
        | none => exact hname
        | some f =>
            show (store.handle (.added f)).get name = _
            rw [get_handle]
            exact if_pos (name_of_get? ha).symm
    | some f =>
        rw [hb] at hname
        cases ha : s'.flags.get? ⟨ns, name⟩ with
        | none =>
            show (store.handle (.deleted f)).get name = _
            rw [get_handle]
            exact if_pos (name_of_get? hb).symm
        | some f' =>
            dsimp only
            split
            · next hsame =>
                rw [hsame]
                exact hname
            · show (store.handle (.modified f')).get name = _
              rw [get_handle]
              exact if_pos (name_of_get? ha).symm
  · -- another name: its flag is the same, and the event is not about it
    have hsame : resolvedAt ns s' name = resolvedAt ns s name := by
      rw [resolvedAt, hother ⟨ns, name⟩ (Ne.symm hk)]
      rfl
    rw [hsame, ← h name]
    unfold changeOf
    split
    · next hns =>
        have hne : name ≠ k.name := by
          rintro rfl
          exact hk (by rw [← hns])
        have hskip : ∀ e f, s.flags.get? k = some f ∨ s'.flags.get? k = some f →
            e = .added f ∨ e = .modified f ∨ e = .deleted f →
            (store.handle e).get name = store.get name := by
          intro e f hf he
          have hfn : name ≠ f.metadata.name := by
            have hkey : f.metadata.objectKey = k :=
              hf.elim VTable.key_of_get? VTable.key_of_get?
            intro h
            exact hne (h.trans (congrArg ObjectKey.name hkey))
          rw [get_handle]
          rcases he with rfl | rfl | rfl
          · exact if_neg hfn
          · exact if_neg hfn
          · exact if_neg hfn
        split
        · rfl
        · next f _ ha => exact hskip (.added f) f (.inr ha) (.inl rfl)
        · next f hb _ =>
            exact hskip (.deleted f) f (.inl hb) (.inr (.inr rfl))
        · next f f' hb ha =>
            split
            · rfl
            · exact hskip (.modified f') f' (.inr ha) (.inr (.inl rfl))
    · rfl

/-! ## The replay -/

/-- After a replay the map has the replayed flags, and for every other name
what it had. -/
theorem get_replay {order : List FeatureFlag} (store : FlagStore) (name : String)
    (hnodup : (order.map (·.metadata.name)).Nodup) :
    ((order.map WatchEvent.added).foldl FlagStore.handle store).get name =
      match order.find? (fun f => f.metadata.name = name) with
      | some f => some (resolveFlag f)
      | none => store.get name := by
  induction order generalizing store with
  | nil => rfl
  | cons f fs ih =>
      rw [List.map_cons, List.nodup_cons] at hnodup
      rw [List.map_cons, List.foldl_cons, ih _ hnodup.2, List.find?_cons]
      by_cases hname : f.metadata.name = name
      · have hnone : fs.find? (fun f => f.metadata.name = name) = none := by
          rw [List.find?_eq_none]
          intro g hg hgn
          refine hnodup.1 (List.mem_map.mpr ⟨g, hg, ?_⟩)
          exact (of_decide_eq_true hgn).trans hname.symm
        simp only [hname, hnone, decide_true]
        rw [get_handle]
        exact if_pos hname.symm
      · simp only [hname, decide_false]
        cases fs.find? (fun f => f.metadata.name = name) with
        | some g => rfl
        | none =>
            show (store.handle (.added f)).get name = store.get name
            rw [get_handle]
            exact if_neg (Ne.symm hname)

theorem mem_flagsIn {ns : String} {s : Cluster} {f : FeatureFlag} :
    f ∈ flagsIn ns s ↔ s.flags.get? ⟨ns, f.metadata.name⟩ = some f := by
  unfold flagsIn
  rw [List.mem_filter]
  constructor
  · rintro ⟨hmem, hns⟩
    have hns : f.metadata.ns = ns := by simpa using hns
    have h := Table.get?_of_mem hmem
    rw [← hns]
    exact h
  · intro h
    have hns : f.metadata.ns = ns :=
      congrArg ObjectKey.ns (VTable.key_of_get? h)
    exact ⟨Table.mem_of_get? h, by simpa using hns⟩

/-- Flags of one namespace have different names. -/
theorem names_nodup (ns : String) (s : Cluster) :
    ((flagsIn ns s).map (·.metadata.name)).Nodup := by
  have hkeys : ((flagsIn ns s).map (·.metadata.objectKey)).Nodup :=
    s.flags.rows.nodup.sublist (List.filter_sublist.map _)
  refine List.Nodup.of_map (fun name => (⟨ns, name⟩ : ObjectKey)) ?_
  rw [List.map_map]
  refine (congrArg List.Nodup (List.map_congr_left fun f hf => ?_)).mpr hkeys
  have hns := (List.mem_filter.mp hf).2
  simp only [decide_eq_true_eq] at hns
  simp [ObjectMeta.objectKey, hns]

theorem mirrors_replay {ns : String} {store : FlagStore} {s : Cluster}
    {order : List FeatureFlag} (horder : order.Perm (flagsIn ns s))
    (hgone : ∀ name, store.get name ≠ none →
      s.flags.get? ⟨ns, name⟩ ≠ none) :
    Mirrors ns ((order.map WatchEvent.added).foldl FlagStore.handle store) s := by
  intro name
  have hnodup : (order.map (·.metadata.name)).Nodup :=
    (horder.map _).nodup_iff.mpr (names_nodup ns s)
  rw [get_replay store name hnodup, resolvedAt]
  cases hfind : order.find? (fun f => f.metadata.name = name) with
  | some f =>
      have hname : f.metadata.name = name := by
        simpa using List.find?_some hfind
      have hmem := horder.mem_iff.mp (List.mem_of_find?_eq_some hfind)
      rw [← hname, mem_flagsIn.mp hmem]
      rfl
  | none =>
      have hnone : s.flags.get? ⟨ns, name⟩ = none := by
        cases hf : s.flags.get? ⟨ns, name⟩ with
        | none => rfl
        | some f =>
            have hname := name_of_get? hf
            rw [← hname] at hf
            have hmem := horder.mem_iff.mpr (mem_flagsIn.mpr hf)
            exact absurd hname (by
              simpa using List.find?_eq_none.mp hfind f hmem)
      rw [hnone]
      by_contra hne
      exact hgone name hne hnone

/-! ## The run -/

/-- The invariant: handling what is pending makes the map a mirror. -/
def LooksAhead (ns : String) (st : Watcher) : Prop :=
  ∀ pending, st.phase = .connected pending →
    Mirrors ns (pending.foldl FlagStore.handle st.store) st.cluster

theorem looksAhead_step {ns : String} {st st' : Watcher} {e : WatcherStep}
    (hI : LooksAhead ns st)
    (h : Restrict (WatcherNext ns) (NothingGone ns) st e st') :
    LooksAhead ns st' := by
  obtain ⟨hnext, hgone⟩ := h
  cases e with
  | write w =>
      obtain rfl := Option.some.inj hnext
      intro pending' hphase
      cases hp : st.phase with
      | connected pending =>
          simp only [hp, WatchPhase.connected.injEq] at hphase
          subst hphase
          rw [List.foldl_append]
          cases hkey : w.flagKey with
          | none =>
              intro name
              rw [resolvedAt, OtherWrite.flags_apply_ne (by simp [hkey])]
              exact hI pending hp name
          | some k =>
              refine mirrors_change (hI pending hp) fun k' hk' => ?_
              refine OtherWrite.flags_apply_ne ?_
              rw [hkey]
              intro heq
              exact hk' (Option.some.inj heq).symm
      | starting | loading | disconnected => simp [hp] at hphase
  | list =>
      simp only [WatcherNext, Watcher.next] at hnext
      split at hnext
      · obtain rfl := Option.some.inj hnext
        intro pending hphase
        cases hphase
      · cases hnext
  | load =>
      simp only [WatcherNext, Watcher.next] at hnext
      split at hnext
      · obtain rfl := Option.some.inj hnext
        intro pending hphase
        cases hphase
      · obtain rfl := Option.some.inj hnext
        intro pending hphase
        cases hphase
      · cases hnext
  | connect order =>
      simp only [WatcherNext, Watcher.next] at hnext
      split at hnext
      · split at hnext
        · next horder =>
            obtain rfl := Option.some.inj hnext
            intro pending hphase
            simp only [WatchPhase.connected.injEq] at hphase
            subst hphase
            exact mirrors_replay horder hgone
        · cases hnext
      · cases hnext
  | deliver =>
      simp only [WatcherNext, Watcher.next] at hnext
      split at hnext
      · next ev pending hp =>
          obtain rfl := Option.some.inj hnext
          intro pending' hphase
          simp only [WatchPhase.connected.injEq] at hphase
          subst hphase
          exact hI _ hp
      · cases hnext
  | disconnect =>
      simp only [WatcherNext, Watcher.next] at hnext
      split at hnext
      · obtain rfl := Option.some.inj hnext
        intro pending hphase
        cases hphase
      · cases hnext

/-- In every run in which each watch is opened while all flags in the map still
exist, whenever a watch is open and its events are handled, the map has for each
existing flag its resolved view and nothing else; and that is what the sidecar
lists. -/
theorem mirrors_of_nothingGone {ns : String} {s₀ : Cluster} {st : Watcher}
    {es : List WatcherStep}
    (hrun : Run (Restrict (WatcherNext ns) (NothingGone ns)) (Watcher.start s₀)
      es st) (hdone : st.phase = .connected []) :
    Mirrors ns st.store st.cluster ∧
      ∀ r, r ∈ st.store.all ↔ ∃ f ∈ flagsIn ns st.cluster, r = resolveFlag f := by
  have hmirror : Mirrors ns st.store st.cluster :=
    hrun.invariant (fun _ _ _ hI hstep => looksAhead_step hI hstep)
      (fun _ h => nomatch h) [] hdone
  refine ⟨hmirror, fun r => ?_⟩
  rw [FlagStore.mem_all]
  constructor
  · rintro ⟨name, h⟩
    rw [hmirror name, resolvedAt, Option.map_eq_some_iff] at h
    obtain ⟨f, hf, rfl⟩ := h
    have hname := name_of_get? hf
    rw [← hname] at hf
    exact ⟨f, mem_flagsIn.mpr hf, rfl⟩
  · rintro ⟨f, hf, rfl⟩
    refine ⟨f.metadata.name, ?_⟩
    rw [hmirror, resolvedAt, mem_flagsIn.mp hf]
    rfl

/-! ## A sidecar at work -/

def mirrorFlag : FeatureFlag where
  metadata := { name := "dark-mode", ns := "default" }
  spec := { type := .boolean, defaultValue := "true" }

/-- The namespace is empty when the watch is opened, and the flag comes later. -/
def flagArrives : List WatcherStep :=
  [.list, .load, .connect [], .write (.putFlag mirrorFlag), .deliver]

theorem mirrors_of_nothingGone_sample :
    ∃ st, Run (WatcherNext "default") (Watcher.start {}) flagArrives st ∧
      st.store.get "dark-mode" = some (resolveFlag mirrorFlag) ∧
      Mirrors "default" st.store st.cluster ∧
      ∀ r, r ∈ st.store.all ↔
        ∃ f ∈ flagsIn "default" st.cluster, r = resolveFlag f := by
  have hgone : ∀ name, ({} : FlagStore).get name ≠ none →
      ({} : Cluster).flags.get? ⟨"default", name⟩ ≠ none :=
    fun _ h => absurd (Finmap.lookup_empty _) h
  have hrun : ∃ st, Run (Restrict (WatcherNext "default")
      (NothingGone "default")) (Watcher.start {}) flagArrives st ∧
      st.phase = .connected [] ∧
      st.store.get "dark-mode" = some (resolveFlag mirrorFlag) :=
    ⟨_, .cons ⟨rfl, trivial⟩ (.cons ⟨rfl, trivial⟩ (.cons ⟨rfl, hgone⟩
      (.cons ⟨rfl, trivial⟩ (.cons ⟨rfl, trivial⟩ .nil)))), rfl, by decide⟩
  obtain ⟨st, hrun, hdone, hget⟩ := hrun
  exact ⟨st, hrun.unrestrict, hget, mirrors_of_nothingGone hrun hdone⟩

def mirrorCluster : Cluster := (OtherWrite.putFlag mirrorFlag).apply {}

/-- The flag is deleted between the list and the watch, for which no event is
ever sent. -/
def flagVanishes : List WatcherStep :=
  [.list, .load, .load, .write (.deleteFlag ⟨"default", "dark-mode"⟩),
    .connect []]

theorem deleted_flag_stays :
    ∃ st, Run (WatcherNext "default") (Watcher.start mirrorCluster)
        flagVanishes st ∧
      st.phase = .connected [] ∧
      resolvedAt "default" st.cluster "dark-mode" = none ∧
      st.store.get "dark-mode" = some (resolveFlag mirrorFlag) ∧
      ¬ Mirrors "default" st.store st.cluster := by
  have hsome : (steps (Watcher.next "default") flagVanishes
      (Watcher.start mirrorCluster)).isSome := by decide
  have hend : (Option.get _ hsome).phase = .connected [] ∧
      resolvedAt "default" (Option.get _ hsome).cluster "dark-mode" = none ∧
      (Option.get _ hsome).store.get "dark-mode" =
        some (resolveFlag mirrorFlag) := by decide +revert
  obtain ⟨hphase, hnone, hget⟩ := hend
  refine ⟨_, run_of_steps (fun _ _ _ h => h) (Option.some_get hsome).symm,
    hphase, hnone, hget, fun h => ?_⟩
  have hname := h "dark-mode"
  rw [hnone, hget] at hname
  cases hname

end Vexil.Sidecar
