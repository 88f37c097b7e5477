import Vexil.Proofs.Mirror
import Vexil.Proofs.SidecarApi
import Vexil.Proofs.StatusHonesty
import Vexil.Sidecar.Pipeline

/-!
# What the SDKs read was declared

Two things hold of the whole way from the declaration of a flag to an SDK. At
any time, whatever failed or was lost on the way, a value that an SDK reads is
one that the flag's declaration once had, and its disabled bit is one that the
declaration had at that time or later. The two need not be of one declaration.
And when the operator has seen to the latest edit and the sidecar has handled
its events, all SDKs read the declaration as it stands.

The only writers of a flag are its users, who edit the declaration, and the
operator, whose status write is accepted for the version it was computed from:
`flags_step` says so. What the sidecar holds is therefore traced back to a
stored flag, and the status of that flag to an earlier declaration.
-/

namespace Vexil.Sidecar

open Vexil.Lib Vexil.Kube Vexil.Operator Vexil.Sdk

/-! ## Steps of the cluster -/

section
variable [Apimachinery] {ι : Type} [DecidableEq ι] {nows : ι → Nat}
  {reqs : ι → ObjectKey}

omit [Apimachinery] [DecidableEq ι] in
/-- A step is about one flag at most. -/
theorem flags_step_ne {s s' : Cluster} {l : SystemLabel ι} {k : ObjectKey}
    (h : SystemStep s l s') (hk : stepFlagKey l ≠ some k) :
    s'.flags.get? k = s.flags.get? k := by
  cases l with
  | other w =>
      have hs' : s' = w.apply s := h
      rw [hs']
      exact OtherWrite.flags_apply_ne hk
  | own i e =>
      obtain ⟨c, r⟩ := e
      obtain ⟨_, rfl⟩ | h := StaleStep.cases h
      · rfl
      · have hk : callFlagKey c ≠ some k := hk
        have hwrite : ∀ f : FeatureFlag, f.metadata.objectKey ≠ k →
            (s.flags.write f).get? k = s.flags.get? k := by
          intro f hf
          exact (VTable.get?_write _ _ k).trans (if_neg (Ne.symm hf))
        cases r with
        | error err => rw [h.of_error]
        | ok v =>
            cases c with
            | getFlag | listFlags | listDeployments | listStatefulSets
            | listDaemonSets | getConfigMap | listConfigMaps =>
                rw [h.of_read rfl]
            | createFlag f =>
                obtain ⟨_, rfl⟩ := kubeStep_createFlag h
                exact hwrite (s.newFlag f.received) fun heq =>
                  hk (congrArg some heq)
            | updateFlag f =>
                obtain ⟨old, _, _, ⟨_, rfl⟩ | rfl⟩ := kubeStep_updateFlag h
                · rfl
                · exact hwrite (mergeSent old f) fun heq =>
                    hk (congrArg some heq)
            | updateFlagStatus f =>
                obtain ⟨old, hold, _, ⟨_, rfl⟩ | rfl⟩ :=
                  kubeStep_updateFlagStatus h
                · rfl
                · refine hwrite (mergeFlagStatus old f) fun heq => ?_
                  have hkey : old.metadata.objectKey = f.metadata.objectKey :=
                    VTable.key_of_get? hold
                  exact hk (congrArg some (hkey.symm.trans heq))
            | deleteFlag key =>
                rw [kubeStep_deleteFlag h]
                refine (VTable.get?_remove _ _ k).trans (if_neg fun heq => ?_)
                exact hk (congrArg some heq.symm)
            | updateDeployment d =>
                obtain ⟨_, _, _, ⟨_, rfl⟩ | rfl⟩ := kubeStep_updateDeployment h
                · rfl
                · rfl
            | createConfigMap cm =>
                obtain ⟨_, rfl⟩ := kubeStep_createConfigMap h
                rfl
            | updateConfigMap cm =>
                obtain ⟨_, _, _, ⟨_, rfl⟩ | rfl⟩ := kubeStep_updateConfigMap h
                · rfl
                · rfl

/-- A status that the operator computed from the flag it is stored with. -/
def StatusWrite (s s' : Cluster) : Prop :=
  ∃ k f now phase count, s.flags.get? k = some f ∧
    (phase = FlagPhase.disabled ↔ f.spec.disabled = true) ∧
    s' = { s with flags := s.flags.write { f with
      status := newStatus now f phase f.spec.defaultValue count } }

/-- What a step does to the flags, after any run. -/
theorem flags_step {s₀ s s' : Cluster} {ls : List (SystemLabel ι)}
    {l : SystemLabel ι}
    (hprogs : Interleaved (fun i => reconcile (nows i) (reqs i)) (ls ++ [l]))
    (hrun : Run SystemStep s₀ ls s) (hstep : SystemStep s l s') :
    s'.flags = s.flags ∨ StatusWrite s s' ∨
      ∃ w, l = .other w ∧ s' = w.apply s := by
  cases l with
  | other w => exact .inr (.inr ⟨w, rfl, hstep⟩)
  | own i e =>
      have hcall : OperatorCall (nows i) (reqs i) (proj i ls) e.call :=
        hprogs.call_along (P := fun i => OperatorCall (nows i) (reqs i))
          (reconcile_along (nows i) (reqs i))
      obtain ⟨c, r⟩ := e
      obtain ⟨_, rfl⟩ | h := StaleStep.cases hstep
      · exact .inl rfl
      · cases r with
        | error err =>
            rw [h.of_error]
            exact .inl rfl
        | ok v =>
            cases c with
            | getFlag | listDeployments | getConfigMap =>
                rw [h.of_read rfl]
                exact .inl rfl
            | listFlags | createFlag | updateFlag | deleteFlag
            | listStatefulSets | listDaemonSets | listConfigMaps =>
                exact hcall.elim
            | updateDeployment d =>
                obtain ⟨_, _, _, ⟨_, rfl⟩ | rfl⟩ := kubeStep_updateDeployment h
                · exact .inl rfl
                · exact .inl rfl
            | createConfigMap cm =>
                obtain ⟨_, rfl⟩ := kubeStep_createConfigMap h
                exact .inl rfl
            | updateConfigMap cm =>
                obtain ⟨_, _, _, ⟨_, rfl⟩ | rfl⟩ := kubeStep_updateConfigMap h
                · exact .inl rfl
                · exact .inl rfl
            | updateFlagStatus f' =>
                obtain ⟨f, phase, count, hf, hphase, rfl⟩ := hcall
                obtain ⟨hpast, _⟩ := getFlag_past hrun (mem_proj.mp hf)
                obtain ⟨old, hold, hv, hs'⟩ := kubeStep_updateFlagStatus h
                -- the snapshot is the stored flag
                have heq : old = f := VTable.eq_of_version hpast hold hv
                subst heq
                obtain ⟨_, rfl⟩ | rfl := hs'
                · exact .inl rfl
                · exact .inr (.inl ⟨_, old, _, phase, count, hold, hphase, rfl⟩)

end

/-! ## Steps of the sidecar -/

/-- What a step of the sidecar itself can do. -/
inductive SidecarMove (ns : String) (st : Watcher) : Watcher → Prop
  | list : SidecarMove ns st
      { st with phase := .loading (flagsIn ns st.cluster) }
  | load {f : FeatureFlag} {fs : List FeatureFlag}
      (h : st.phase = .loading (f :: fs)) : SidecarMove ns st
      { st with store := st.store.set (resolveFlag f), phase := .loading fs }
  | connect {order : List FeatureFlag}
      (h : order.Perm (flagsIn ns st.cluster)) : SidecarMove ns st
      { st with phase := .connected (order.map .added) }
  | deliver {e : WatchEvent} {pending : List WatchEvent}
      (h : st.phase = .connected (e :: pending)) : SidecarMove ns st
      { st with store := st.store.handle e, phase := .connected pending }
  | disconnect : SidecarMove ns st { st with phase := .disconnected }

theorem sidecarMove {ns : String} {st st' : Watcher} {e : WatcherStep}
    (hown : ∀ w, e ≠ .write w) (h : WatcherNext ns st e st') :
    SidecarMove ns st st' := by
  cases e with
  | write w => exact absurd rfl (hown w)
  | list =>
      simp only [WatcherNext, Watcher.next] at h
      split at h
      · obtain rfl := Option.some.inj h
        exact .list
      · cases h
  | load =>
      simp only [WatcherNext, Watcher.next] at h
      split at h
      · obtain rfl := Option.some.inj h
        exact .disconnect
      · next hphase =>
          obtain rfl := Option.some.inj h
          exact .load hphase
      · cases h
  | connect order =>
      simp only [WatcherNext, Watcher.next] at h
      split at h
      · split at h
        · next horder =>
            obtain rfl := Option.some.inj h
            exact .connect horder
        · cases h
      · cases h
  | deliver =>
      simp only [WatcherNext, Watcher.next] at h
      split at h
      · next hphase =>
          obtain rfl := Option.some.inj h
          exact .deliver hphase
      · cases h
  | disconnect =>
      simp only [WatcherNext, Watcher.next] at h
      split at h
      · obtain rfl := Option.some.inj h
        exact .disconnect
      · cases h

theorem SidecarMove.cluster {ns : String} {st st' : Watcher}
    (h : SidecarMove ns st st') : st'.cluster = st.cluster := by
  cases h with
  | list | load | connect | deliver | disconnect => rfl

/-! ## Runs -/

section
variable {ι : Type} {ns : String} {s₀ : Cluster} {ls : List (PipelineLabel ι)}
  {st st' : Watcher}

/-- The cluster's part of a run. -/
theorem cluster_run (h : Run (PipelineStep ns) st ls st') :
    Run SystemStep st.cluster (clusterLabels ls) st'.cluster := by
  induction h with
  | nil => exact .nil
  | @cons st m st' l ls hstep _ ih =>
      cases l with
      | cluster l =>
          obtain ⟨s', hs', rfl⟩ := hstep
          exact .cons hs' ih
      | sidecar e =>
          obtain ⟨hown, hnext⟩ := hstep
          have hcluster := (sidecarMove hown hnext).cluster
          show Run SystemStep st.cluster (clusterLabels ls) _
          rw [← hcluster]
          exact ih

theorem clusterLabels_snoc (ls : List (PipelineLabel ι)) (l : SystemLabel ι) :
    clusterLabels (ls ++ [.cluster l]) = clusterLabels ls ++ [l] := by
  simp [clusterLabels]

end

/-! ## Where a value comes from -/

section
variable {ι : Type} (ns : String) (s₀ : Cluster) (ls : List (PipelineLabel ι))

/-- At some moment of the run the flag had the value for its default. -/
def WasDeclared (name value : String) : Prop :=
  ∃ ls₁ ls₂ m f, ls = ls₁ ++ ls₂ ∧
    Run (PipelineStep ns) (Watcher.start s₀) ls₁ m ∧
    m.cluster.flags.get? ⟨ns, name⟩ = some f ∧ f.spec.defaultValue = value

/-- At some moment of the run this was the view of a stored flag, with a value
that had been declared by then. -/
def WasResolved (r : ResolvedFlag) : Prop :=
  ∃ ls₁ ls₂ m f, ls = ls₁ ++ ls₂ ∧
    Run (PipelineStep ns) (Watcher.start s₀) ls₁ m ∧
    m.cluster.flags.get? ⟨ns, r.name⟩ = some f ∧ r = resolveFlag f ∧
    WasDeclared ns s₀ ls₁ r.name r.value

/-- The event brings a view of this kind, if it brings one. -/
def SentResolved : WatchEvent → Prop
  | .added f | .modified f => WasResolved ns s₀ ls (resolveFlag f)
  | .deleted _ => True

/-- What is known of all values in the system. -/
structure Traced (st : Watcher) : Prop where
  status {name : String} {f : FeatureFlag}
    (h : st.cluster.flags.get? ⟨ns, name⟩ = some f) :
    f.status.currentValue = "" ∨
      WasDeclared ns s₀ ls name f.status.currentValue
  store {name : String} {r : ResolvedFlag} (h : st.store.get name = some r) :
    r.name = name ∧ WasResolved ns s₀ ls r
  loading {items : List FeatureFlag} (h : st.phase = .loading items) :
    ∀ f ∈ items, WasResolved ns s₀ ls (resolveFlag f)
  pending {events : List WatchEvent} (h : st.phase = .connected events) :
    ∀ e ∈ events, SentResolved ns s₀ ls e

end

section
variable {ι : Type} {ns : String} {s₀ : Cluster} {ls : List (PipelineLabel ι)}
  {st st' : Watcher} {name value : String} {r : ResolvedFlag}

theorem WasDeclared.append (h : WasDeclared ns s₀ ls name value)
    (l : PipelineLabel ι) : WasDeclared ns s₀ (ls ++ [l]) name value := by
  obtain ⟨ls₁, ls₂, m, f, rfl, hrest⟩ := h
  exact ⟨ls₁, ls₂ ++ [l], m, f, List.append_assoc _ _ _, hrest⟩

theorem WasResolved.append (h : WasResolved ns s₀ ls r)
    (l : PipelineLabel ι) : WasResolved ns s₀ (ls ++ [l]) r := by
  obtain ⟨ls₁, ls₂, m, f, rfl, hrest⟩ := h
  exact ⟨ls₁, ls₂ ++ [l], m, f, List.append_assoc _ _ _, hrest⟩

theorem SentResolved.append {e : WatchEvent} (h : SentResolved ns s₀ ls e)
    (l : PipelineLabel ι) : SentResolved ns s₀ (ls ++ [l]) e := by
  cases e with
  | added f => exact WasResolved.append h l
  | modified f => exact WasResolved.append h l
  | deleted f => trivial

theorem wasDeclared_now (hrun : Run (PipelineStep ns) (Watcher.start s₀) ls st)
    {f : FeatureFlag} (hf : st.cluster.flags.get? ⟨ns, name⟩ = some f) :
    WasDeclared ns s₀ ls name f.spec.defaultValue :=
  ⟨ls, [], st, f, (List.append_nil ls).symm, hrun, hf, rfl⟩

/-- The view of a flag that is stored now. -/
theorem wasResolved_now (hrun : Run (PipelineStep ns) (Watcher.start s₀) ls st)
    {f : FeatureFlag} (hf : st.cluster.flags.get? ⟨ns, name⟩ = some f)
    (hstatus : f.status.currentValue = "" ∨
      WasDeclared ns s₀ ls name f.status.currentValue) :
    WasResolved ns s₀ ls (resolveFlag f) := by
  have hname : (resolveFlag f).name = name := name_of_get? hf
  refine ⟨ls, [], st, f, (List.append_nil ls).symm, hrun, ?_, rfl, ?_⟩
  · rw [hname]
    exact hf
  · rw [hname]
    show WasDeclared ns s₀ ls name (if f.status.currentValue ≠ "" then
      f.status.currentValue else f.spec.defaultValue)
    split
    · next hne => exact hstatus.resolve_left hne
    · exact wasDeclared_now hrun hf

variable [Apimachinery] [DecidableEq ι] {nows : ι → Nat} {reqs : ι → ObjectKey}

/-- What a step of the cluster does to the status of a flag. -/
theorem status_step {l : SystemLabel ι} {s' : Cluster}
    (hprogs : Interleaved (fun i => reconcile (nows i) (reqs i))
      (clusterLabels ls ++ [l]))
    (hother : ∀ f, l ≠ .other (.putFlagStatus f))
    (hrun : Run (PipelineStep ns) (Watcher.start s₀) ls st)
    (hstep : SystemStep st.cluster l s') (h : Traced ns s₀ ls st)
    {f : FeatureFlag} (hf : s'.flags.get? ⟨ns, name⟩ = some f) :
    f.status.currentValue = "" ∨
      WasDeclared ns s₀ ls name f.status.currentValue := by
  obtain hsame | hwrite | ⟨w, rfl, rfl⟩ :=
    flags_step hprogs (cluster_run hrun) hstep
  · rw [hsame] at hf
    exact h.status hf
  · obtain ⟨k, g, now, phase, count, hg, _, rfl⟩ := hwrite
    have hkey : g.metadata.objectKey = k := VTable.key_of_get? hg
    have hf : (st.cluster.flags.write { g with
        status := newStatus now g phase g.spec.defaultValue count }).get?
          ⟨ns, name⟩ = some f := hf
    rw [VTable.get?_write] at hf
    split at hf
    · next heq =>
        obtain rfl := Option.some.inj hf
        have heq : (⟨ns, name⟩ : ObjectKey) = k := heq.trans hkey
        rw [← heq] at hg
        exact .inr (wasDeclared_now hrun hg)
    · exact h.status hf
  · cases w with
    | putFlagStatus g => exact absurd rfl (hother g)
    | putFlag g =>
        simp only [OtherWrite.apply] at hf
        split at hf
        · rw [VTable.get?_write] at hf
          split at hf
          · obtain rfl := Option.some.inj hf
            exact .inl rfl
          · exact h.status hf
        · next old hold =>
            unfold Cluster.writeFlag at hf
            split at hf
            · exact h.status hf
            · rw [VTable.get?_write] at hf
              split at hf
              · next heq =>
                  obtain rfl := Option.some.inj hf
                  have heq : (⟨ns, name⟩ : ObjectKey) =
                    g.metadata.objectKey := heq
                  rw [← heq] at hold
                  have hstatus := h.status hold
                  exact hstatus
              · exact h.status hf
    | deleteFlag key =>
        have hf : (st.cluster.flags.remove key).get? ⟨ns, name⟩ = some f := hf
        rw [VTable.get?_remove] at hf
        split at hf
        · cases hf
        · exact h.status hf
    | putDeployment | deleteDeployment | putConfigMap | deleteConfigMap
    | tick => exact h.status hf

omit [Apimachinery] in
/-- An event that is sent brings the flag as it is stored now. -/
theorem sent_of_change {k : ObjectKey} {s s' : Cluster} {e : WatchEvent}
    (he : e ∈ changeOf ns k s s') :
    (∃ f, e = .deleted f) ∨ ∃ f, s'.flags.get? ⟨ns, k.name⟩ = some f ∧
      (e = .added f ∨ e = .modified f) := by
  unfold changeOf at he
  split at he
  · next hns =>
      have hk : k = ⟨ns, k.name⟩ := by rw [← hns]
      split at he
      · cases he
      · next f _ hf =>
          rw [← hk]
          exact .inr ⟨f, hf, .inl (List.mem_singleton.mp he)⟩
      · next f _ _ => exact .inl ⟨f, List.mem_singleton.mp he⟩
      · next f f' _ hf =>
          split at he
          · cases he
          · rw [← hk]
            exact .inr ⟨f', hf, .inr (List.mem_singleton.mp he)⟩
  · cases he

/-- One step of the cluster keeps all values traced. -/
theorem traced_cluster {l : SystemLabel ι}
    (hprogs : Interleaved (fun i => reconcile (nows i) (reqs i))
      (clusterLabels ls ++ [l]))
    (hother : ∀ f, l ≠ .other (.putFlagStatus f))
    (hrun : Run (PipelineStep ns) (Watcher.start s₀) ls st)
    (hstep : PipelineStep ns st (.cluster l) st') (h : Traced ns s₀ ls st) :
    Traced ns s₀ (ls ++ [.cluster l]) st' := by
  have hrun' := run_snoc.mpr ⟨st, hrun, hstep⟩
  obtain ⟨s', hs', rfl⟩ := hstep
  have hstatus : ∀ {name : String} {f : FeatureFlag},
      s'.flags.get? ⟨ns, name⟩ = some f →
        f.status.currentValue = "" ∨ WasDeclared ns s₀ (ls ++ [.cluster l]) name
          f.status.currentValue := fun hf =>
    (status_step hprogs hother hrun hs' h hf).imp_right
      (WasDeclared.append · _)
  refine ⟨hstatus, fun hr => (h.store hr).imp_right (WasResolved.append · _),
    fun {items} hphase f hf => ?_, fun {events} hphase e he => ?_⟩
  · have hphase' : st.phase = .loading items := by
      unfold Watcher.observe at hphase
      dsimp only at hphase
      split at hphase
      · cases hphase
      · exact hphase
    exact (h.loading hphase' f hf).append _
  · unfold Watcher.observe at hphase
    dsimp only at hphase
    split at hphase
    · next pending hpending =>
        obtain rfl := WatchPhase.connected.inj hphase
        obtain he | he := List.mem_append.mp he
        · exact (h.pending hpending e he).append _
        · cases hkey : stepFlagKey l with
          | none =>
              rw [hkey] at he
              cases he
          | some k =>
              rw [hkey] at he
              obtain ⟨f, rfl⟩ | ⟨f, hf, hsent⟩ := sent_of_change he
              · trivial
              · have hnow := wasResolved_now hrun' hf (hstatus hf)
                obtain rfl | rfl := hsent
                · exact hnow
                · exact hnow
    · next hne => exact absurd hphase (hne _)

omit [Apimachinery] [DecidableEq ι] in
/-- One step of the sidecar keeps all values traced. -/
theorem traced_sidecar {e : WatcherStep}
    (hrun : Run (PipelineStep ns) (Watcher.start s₀) ls st)
    (hmove : SidecarMove ns st st') (h : Traced ns s₀ ls st) :
    Traced ns s₀ (ls ++ [.sidecar e]) st' := by
  have hlisted : ∀ f ∈ flagsIn ns st.cluster,
      WasResolved ns s₀ (ls ++ [.sidecar e]) (resolveFlag f) := by
    intro f hf
    have hget := mem_flagsIn.mp hf
    exact (wasResolved_now hrun hget (h.status hget)).append _
  have hset : ∀ f, WasResolved ns s₀ (ls ++ [.sidecar e]) (resolveFlag f) →
      ∀ name r, (st.store.set (resolveFlag f)).get name = some r →
        r.name = name ∧ WasResolved ns s₀ (ls ++ [.sidecar e]) r := by
    intro f hf name r hr
    rw [FlagStore.get_set] at hr
    split at hr
    · next heq =>
        obtain rfl := Option.some.inj hr
        exact ⟨heq.symm, hf⟩
    · exact (h.store hr).imp_right (WasResolved.append · _)
  have hstatus : ∀ {name : String} {f : FeatureFlag},
      st.cluster.flags.get? ⟨ns, name⟩ = some f →
        f.status.currentValue = "" ∨
          WasDeclared ns s₀ (ls ++ [.sidecar e]) name f.status.currentValue :=
    fun hf => (h.status hf).imp_right (WasDeclared.append · _)
  have hstore : ∀ {name : String} {r : ResolvedFlag},
      st.store.get name = some r →
        r.name = name ∧ WasResolved ns s₀ (ls ++ [.sidecar e]) r :=
    fun hr => (h.store hr).imp_right (WasResolved.append · _)
  cases hmove with
  | list =>
      refine ⟨hstatus, hstore, fun hphase => ?_, nofun⟩
      obtain rfl := WatchPhase.loading.inj hphase
      exact hlisted
  | load hphase =>
      obtain ⟨hf, hfs⟩ := List.forall_mem_cons.mp (h.loading hphase)
      refine ⟨hstatus, hset _ (hf.append _) _ _, fun hphase' g hg => ?_,
        nofun⟩
      obtain rfl := WatchPhase.loading.inj hphase'
      exact (hfs g hg).append _
  | connect horder =>
      refine ⟨hstatus, hstore, nofun,
        fun hphase e he => ?_⟩
      obtain rfl := WatchPhase.connected.inj hphase
      obtain ⟨f, hf, rfl⟩ := List.mem_map.mp he
      exact hlisted f (horder.mem_iff.mp hf)
  | @deliver e pending hphase =>
      obtain ⟨he, hpending⟩ := List.forall_mem_cons.mp (h.pending hphase)
      refine ⟨hstatus, fun {name r} hr => ?_, nofun,
        fun hphase' e' he' => ?_⟩
      · cases e with
        | added f => exact hset f (WasResolved.append he _) name r hr
        | modified f => exact hset f (WasResolved.append he _) name r hr
        | deleted f =>
            have hr : (st.store.delete f.metadata.name).get name = some r := hr
            rw [FlagStore.get_delete] at hr
            split at hr
            · cases hr
            · exact hstore hr
      · obtain rfl := WatchPhase.connected.inj hphase'
        exact (hpending e' he').append _
  | disconnect =>
      exact ⟨hstatus, hstore, nofun,
        nofun⟩

/-- All values are traced, in every state that is reached. -/
theorem traced_run
    (hprogs : Interleaved (fun i => reconcile (nows i) (reqs i))
      (clusterLabels ls))
    (hothers : ∀ f, .cluster (.other (.putFlagStatus f)) ∉ ls)
    (hinit : ∀ f ∈ s₀.flags.rows.items, f.status.currentValue = "")
    (hrun : Run (PipelineStep ns) (Watcher.start s₀) ls st) :
    Traced ns s₀ ls st := by
  refine Run.reverse_induction (P := fun ls st =>
    Interleaved (fun i => reconcile (nows i) (reqs i)) (clusterLabels ls) →
    (∀ f, .cluster (.other (.putFlagStatus f)) ∉ ls) → Traced ns s₀ ls st)
    ?_ ?_ hrun hprogs hothers
  · intro _ _
    have hempty : ∀ name, (Watcher.start s₀).store.get name = none :=
      fun name => Finmap.lookup_empty name
    refine ⟨fun hf => .inl (hinit _ (Table.mem_of_get? hf)), fun hr => ?_,
      nofun, nofun⟩
    rw [hempty] at hr
    cases hr
  · intro es m l st' hpre ih hstep hprogs hothers
    have hothers' : ∀ f, .cluster (.other (.putFlagStatus f)) ∉ es :=
      fun f hf => hothers f (List.mem_append_left _ hf)
    cases l with
    | cluster l =>
        rw [clusterLabels_snoc] at hprogs
        refine traced_cluster hprogs (fun f hl => hothers f ?_) hpre hstep
          (ih hprogs.of_append hothers')
        rw [hl]
        exact List.mem_append_right _ (List.mem_singleton_self _)
    | sidecar e =>
        have hsame : clusterLabels (es ++ [.sidecar e]) = clusterLabels es := by
          simp [clusterLabels]
        rw [hsame] at hprogs
        exact traced_sidecar hpre (sidecarMove hstep.1 hstep.2)
          (ih hprogs hothers')

end

/-! ## What the SDKs read -/

section
variable {ι : Type} {ns : String} {s₀ : Cluster} {ls : List (PipelineLabel ι)}
  {st : Watcher} {order : List ResolvedFlag}

/-- The readers of a name read the flag that is stored under it. -/
theorem stored_of_lookup {name : String} (hname : ObjectName name) {g : Flag}
    (hg : some g ∈ sidecarLookups order st.store name) :
    ∃ r, st.store.get name = some r ∧ g = decodeFlag r := by
  have hserved := lookups_eq hname _ hg
  unfold servedFlag at hserved
  split at hserved
  · cases hserved
  · obtain ⟨r, hr, hgr⟩ := Option.map_eq_some_iff.mp hserved.symm
    exact ⟨r, hr, hgr.symm⟩

/-- The listings are of what is stored. -/
theorem stored_of_listing (horder : st.store.Ranges order) {fs : List Flag}
    (hfs : some fs ∈ sidecarListings order st.store) {g : Flag} :
    g ∈ fs ↔ ∃ name r, st.store.get name = some r ∧ g = decodeFlag r := by
  have hsome := listings_eq _ hfs
  obtain rfl := Option.some.inj hsome
  have hmem : ∀ r, r ∈ order ↔ ∃ name, st.store.get name = some r := by
    intro r
    rw [← FlagStore.mem_all, ← horder, Multiset.mem_coe]
  rw [List.mem_map]
  constructor
  · rintro ⟨r, hr, rfl⟩
    obtain ⟨name, hget⟩ := (hmem r).mp hr
    exact ⟨name, r, hget, rfl⟩
  · rintro ⟨name, r, hget, rfl⟩
    exact ⟨r, (hmem r).mpr ⟨name, hget⟩, rfl⟩

variable [Apimachinery] [DecidableEq ι]

/-- However reconciles, edits, lost watches and replays are interleaved, every
flag that an SDK reads from the sidecar, by name or in a list, is the view of a
flag as it was stored at some earlier moment, and its value is one for which the
default had been declared by that moment. -/
theorem reads_were_declared (nows : ι → Nat) (reqs : ι → ObjectKey)
    (hprogs : Interleaved (fun i => reconcile (nows i) (reqs i))
      (clusterLabels ls))
    (hothers : ∀ f, .cluster (.other (.putFlagStatus f)) ∉ ls)
    (hinit : ∀ f ∈ s₀.flags.rows.items, f.status.currentValue = "")
    (hrun : Run (PipelineStep ns) (Watcher.start s₀) ls st)
    (horder : st.store.Ranges order) :
    (∀ name, ObjectName name →
      ∀ g, some g ∈ sidecarLookups order st.store name →
        ∃ r, r.name = name ∧ g = decodeFlag r ∧ WasResolved ns s₀ ls r) ∧
    ∀ fs, some fs ∈ sidecarListings order st.store →
      ∀ g ∈ fs, ∃ r, g = decodeFlag r ∧ WasResolved ns s₀ ls r := by
  have htraced := traced_run hprogs hothers hinit hrun
  constructor
  · intro name hname g hg
    obtain ⟨r, hr, rfl⟩ := stored_of_lookup hname hg
    obtain ⟨hrname, hres⟩ := htraced.store hr
    exact ⟨r, hrname, rfl, hres⟩
  · intro fs hfs g hg
    obtain ⟨name, r, hr, rfl⟩ := (stored_of_listing horder hfs).mp hg
    exact ⟨r, rfl, (htraced.store hr).2⟩

end

/-! ## A value that is older than the switch

The flag is declared and reconciled; then it is edited and switched off, and the
sidecar starts before the operator has seen to that. It serves the old value
with the new switch, which no declaration ever had together. -/

/-- A sidecar that starts later has seen nothing. -/
theorem start_run {ι : Type} {ns : String} {s s' : Cluster}
    {ls : List (SystemLabel ι)} (h : Run SystemStep s ls s') :
    Run (PipelineStep ns) (Watcher.start s) (ls.map .cluster)
      (Watcher.start s') := by
  induction h with
  | nil => exact .nil
  | cons hstep _ ih => exact .cons ⟨_, hstep, rfl⟩ ih

/-- What a sidecar does while the cluster rests. -/
theorem sidecar_run {ι : Type} {ns : String} {st st' : Watcher}
    {es : List WatcherStep} (h : Run (WatcherNext ns) st es st')
    (hown : ∀ w, .write w ∉ es) :
    Run (PipelineStep ns) st (es.map fun e => (.sidecar e : PipelineLabel ι))
      st' := by
  induction h with
  | nil => exact .nil
  | cons hstep _ ih =>
      refine .cons ⟨fun w hw => hown w ?_, hstep⟩ (ih fun w hw => hown w ?_)
      · rw [hw]
        exact List.mem_cons_self
      · exact List.mem_cons_of_mem _ hw

/-- Steps of the cluster, then steps of the sidecar. -/
def clusterThenSidecar {ι : Type} (ls : List (SystemLabel ι))
    (es : List WatcherStep) : List (PipelineLabel ι) :=
  ls.map .cluster ++ es.map fun e => .sidecar e

theorem clusterLabels_clusterThenSidecar {ι : Type}
    (ls : List (SystemLabel ι)) (es : List WatcherStep) :
    clusterLabels (clusterThenSidecar ls es) = ls := by
  simp [clusterLabels, clusterThenSidecar, List.filterMap_append,
    List.filterMap_map]

def switchedOff : FeatureFlag := { sampleFlag {} with
  spec := { (sampleFlag {}).spec with
    defaultValue := "false"
    disabled := true } }

def declaredSample : Cluster := (OtherWrite.putFlag (sampleFlag {})).apply {}

/-- One reconcile of the flag. -/
def reconciledSample : List KubeEvent × Except String Result × Cluster :=
  letI := labelSelectors
  (reconcile 7 ⟨"default", "dark-mode"⟩).exec KubeCall.serve declaredSample

def switchedSample : Cluster :=
  (OtherWrite.putFlag switchedOff).apply reconciledSample.2.2

def declareReconcile : List (SystemLabel Unit) :=
  .other (.putFlag (sampleFlag {})) :: ownAll () reconciledSample.1

theorem declareReconcile_run :
    letI := labelSelectors
    Interleaved (fun _ : Unit => reconcile 7 ⟨"default", "dark-mode"⟩)
      declareReconcile ∧
    Run SystemStep {} declareReconcile reconciledSample.2.2 := by
  let := labelSelectors
  have hsys : ∀ s e s', CleanStep s e s' →
      SystemStep s (.own () e : SystemLabel Unit) s' :=
    fun _ _ _ h => h.kubeStep.stale
  have hdone := (reconcile 7 ⟨"default", "dark-mode"⟩).exec_completes
    KubeCall.serve declaredSample
  exact ⟨interleaved_single (ε := OtherWrite) hdone.1,
    .cons rfl (hdone.2.ownAll hsys)⟩

def declareReconcileSwitch : List (SystemLabel Unit) :=
  declareReconcile ++ [.other (.putFlag switchedOff)]

theorem declareReconcileSwitch_run :
    letI := labelSelectors
    Interleaved (fun _ : Unit => reconcile 7 ⟨"default", "dark-mode"⟩)
      declareReconcileSwitch ∧
    Run SystemStep {} declareReconcileSwitch switchedSample := by
  let := labelSelectors
  obtain ⟨hprogs, hrun⟩ := declareReconcile_run
  refine ⟨fun i => ?_, run_snoc.mpr ⟨_, hrun, rfl⟩⟩
  simpa [declareReconcileSwitch, proj_append] using hprogs i

/-- A sidecar starts, opens its watch and handles what it is sent. -/
def startAndWatch : List WatcherStep :=
  [.list, .load, .load, .connect (flagsIn "default" switchedSample), .deliver]

def mixedFlag : ResolvedFlag where
  name := "dark-mode"
  type := "boolean"
  value := "true"
  disabled := true
  description := ""

theorem startAndWatch_run : ∃ st,
    Run (WatcherNext "default") (Watcher.start switchedSample) startAndWatch
        st ∧
      st.store.get "dark-mode" = some mixedFlag ∧
      st.store.Ranges [mixedFlag] := by
  have hsome : (steps (Watcher.next "default") startAndWatch
      (Watcher.start switchedSample)).isSome := by decide +kernel
  refine ⟨_, run_of_steps (fun _ _ _ h => h) (Option.some_get hsome).symm, ?_⟩
  unfold FlagStore.Ranges
  decide +kernel +revert

theorem reads_were_declared_sample :
    letI := labelSelectors
    ∃ st, Run (PipelineStep "default") (Watcher.start {})
        (clusterThenSidecar declareReconcileSwitch startAndWatch) st ∧
      (∃ g, some g ∈ sidecarLookups [mixedFlag] st.store "dark-mode" ∧
        g.value = "true" ∧ g.disabled = true) ∧
      ∀ name, ObjectName name →
        ∀ g, some g ∈ sidecarLookups [mixedFlag] st.store name →
          ∃ r, r.name = name ∧ g = decodeFlag r ∧
            WasResolved "default" {} (clusterThenSidecar declareReconcileSwitch
              startAndWatch) r := by
  let := labelSelectors
  obtain ⟨hprogs, hcluster⟩ := declareReconcileSwitch_run
  obtain ⟨st, hsidecar, hget, horder⟩ := startAndWatch_run
  have hown : ∀ w, .write w ∉ startAndWatch := by simp [startAndWatch]
  have hrun : Run (PipelineStep "default") (Watcher.start {})
      (clusterThenSidecar declareReconcileSwitch startAndWatch) st :=
    run_append.mpr ⟨_, start_run hcluster, sidecar_run hsidecar hown⟩
  have hothers : ∀ f, .cluster (.other (.putFlagStatus f)) ∉
      clusterThenSidecar declareReconcileSwitch startAndWatch := by
    simp [clusterThenSidecar, declareReconcileSwitch, declareReconcile, ownAll]
  have hinit : ∀ f ∈ ({} : Cluster).flags.rows.items,
      f.status.currentValue = "" := fun _ hf => absurd hf List.not_mem_nil
  refine ⟨st, hrun, ⟨decodeFlag mixedFlag, ?_, rfl, rfl⟩, ?_⟩
  · have hserved : servedFlag st.store "dark-mode" =
        some (decodeFlag mixedFlag) := by
      simp [servedFlag, hget]
    have hname : ObjectName "dark-mode" := by decide
    rw [← hserved]
    have hall : ∀ r ∈ sidecarLookups [mixedFlag] st.store "dark-mode",
        r = servedFlag st.store "dark-mode" := lookups_eq hname
    exact hall _ List.mem_cons_self ▸ List.mem_cons_self
  · refine (reads_were_declared (fun _ => 7)
      (fun _ => ⟨"default", "dark-mode"⟩) ?_ hothers hinit hrun horder).1
    rw [clusterLabels_clusterThenSidecar]
    exact hprogs

end Vexil.Sidecar
