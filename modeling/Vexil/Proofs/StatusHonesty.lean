import Vexil.Operator.System
import Vexil.Sidecar.FlagStore

/-!
# The status tells the truth

A status is computed from a snapshot and written later. By then the flag may
have been edited, or deleted and created again with a generation that the
snapshot had too. `observedGeneration` is all a reader has to tell a current
status from an old one.

`Honest` is about one stored flag and is what the reader hopes for. An edit of
the spec makes the generation larger than any that was observed, and a creation
starts with a status that observed nothing. The status write is the interesting
step: it is accepted for the snapshot's version only, so the stored flag is the
snapshot, with the spec and the generation that the status was computed from.
-/

namespace Vexil.Operator

open Vexil.Lib Vexil.Kube Vexil.Sidecar

/-- When the status is about the current generation, it is right. -/
structure Honest (f : FeatureFlag) : Prop where
  generation_pos : 0 < f.metadata.generation
  observed_le : f.status.observedGeneration ≤ f.metadata.generation
  right : f.status.observedGeneration = f.metadata.generation →
    f.status.currentValue = f.spec.defaultValue ∧
      (f.status.phase = .disabled ↔ f.spec.disabled = true) ∧
      (resolveFlag f).value = f.spec.defaultValue

theorem resolveFlag_of_currentValue {f : FeatureFlag}
    (h : f.status.currentValue = f.spec.defaultValue) :
    (resolveFlag f).value = f.spec.defaultValue := by
  show (if f.status.currentValue ≠ "" then f.status.currentValue
    else f.spec.defaultValue) = _
  rw [h]
  split <;> rfl

/-- A flag with an empty status. -/
theorem Honest.of_empty {f : FeatureFlag} (hpos : 0 < f.metadata.generation)
    (hempty : f.status = {}) : Honest f := by
  have hzero : f.status.observedGeneration = 0 := by rw [hempty]
  refine ⟨hpos, by omega, fun h => ?_⟩
  omega

/-- A write to the main resource: a new spec is a generation nobody observed. -/
theorem Honest.mergeFlag {old : FeatureFlag} (h : Honest old)
    (new : FeatureFlag) : Honest (mergeFlag old new) := by
  obtain ⟨hpos, hle, hright⟩ := h
  have hgen : (Kube.mergeFlag old new).metadata.generation =
      if new.spec = old.spec then old.metadata.generation
      else old.metadata.generation + 1 := rfl
  by_cases hspec : new.spec = old.spec
  · rw [if_pos hspec] at hgen
    refine ⟨hgen ▸ hpos, hgen ▸ hle, fun heq => ?_⟩
    have hold : old.status.observedGeneration = old.metadata.generation :=
      heq.trans hgen
    obtain ⟨hvalue, hphase, _⟩ := hright hold
    have hvalue' : (Kube.mergeFlag old new).status.currentValue =
        (Kube.mergeFlag old new).spec.defaultValue := by
      show old.status.currentValue = new.spec.defaultValue
      rw [hspec, hvalue]
    refine ⟨hvalue', ?_, resolveFlag_of_currentValue hvalue'⟩
    show old.status.phase = .disabled ↔ new.spec.disabled = true
    rw [hspec]
    exact hphase
  · rw [if_neg hspec] at hgen
    have hobs : (Kube.mergeFlag old new).status.observedGeneration =
      old.status.observedGeneration := rfl
    refine ⟨by omega, by omega, fun heq => ?_⟩
    omega

/-- A status computed from the flag it is stored with. -/
theorem Honest.newStatus {old : FeatureFlag} (hpos : 0 < old.metadata.generation)
    {now : Nat} {phase : FlagPhase} {count : Nat}
    (hphase : phase = .disabled ↔ old.spec.disabled = true) :
    Honest { old with
      status := newStatus now old phase old.spec.defaultValue count } where
  generation_pos := hpos
  observed_le := Nat.le_refl _
  right _ := ⟨rfl, hphase, resolveFlag_of_currentValue rfl⟩

def AllHonest (s : Cluster) : Prop := ∀ f ∈ s.flags.rows.items, Honest f

/-- The version a write stamps does not matter. -/
theorem AllHonest.write {s : Cluster} {f : FeatureFlag} (h : AllHonest s)
    (hf : Honest f) : AllHonest { s with flags := s.flags.write f } := by
  intro g hg
  rcases Table.mem_set hg with rfl | hg
  · exact ⟨hf.generation_pos, hf.observed_le, hf.right⟩
  · exact h g hg

theorem honest_stored {s : Cluster} {k : ObjectKey} {f : FeatureFlag}
    (h : AllHonest s) (hf : s.flags.get? k = some f) : Honest f :=
  h f (Table.mem_of_get? hf)

/-! ## The steps -/

/-- Others write no status. -/
theorem honest_other {s : Cluster} {w : OtherWrite} (h : AllHonest s)
    (hw : ∀ f, w ≠ .putFlagStatus f) : AllHonest (w.apply s) := by
  cases w with
  | putFlagStatus f => exact absurd rfl (hw f)
  | putFlag f =>
      simp only [OtherWrite.apply]
      split
      · exact h.write (.of_empty Nat.one_pos rfl)
      · next old hold =>
          unfold Cluster.writeFlag
          split
          · exact h
          · exact h.write ((honest_stored h hold).mergeFlag f)
  | deleteFlag key => exact fun f hf => h f (Table.mem_erase hf)
  | putDeployment | deleteDeployment | putConfigMap | deleteConfigMap | tick =>
      exact h

section
variable [Apimachinery] {ι : Type} [DecidableEq ι]

/-- One call of a reconcile, after any run. -/
theorem honest_own {nows : ι → Nat} {reqs : ι → ObjectKey} {s₀ s s' : Cluster}
    {ls : List (SystemLabel ι)} {i : ι} {c : KubeCall} {v : c.Value}
    (hrun : Run SystemStep s₀ ls s)
    (hcall : OperatorCall (nows i) (reqs i) (proj i ls) c)
    (hstep : KubeStep s ⟨c, .ok v⟩ s') (h : AllHonest s) : AllHonest s' := by
  cases c with
  | getFlag | listDeployments | getConfigMap =>
      rw [hstep.of_read rfl]
      exact h
  | listFlags | createFlag | updateFlag | deleteFlag | listStatefulSets
  | listDaemonSets | listConfigMaps => exact hcall.elim
  | updateDeployment d =>
      obtain ⟨_, _, _, ⟨_, rfl⟩ | rfl⟩ := kubeStep_updateDeployment hstep
      · exact h
      · exact h
  | createConfigMap cm =>
      obtain ⟨_, rfl⟩ := kubeStep_createConfigMap hstep
      exact h
  | updateConfigMap cm =>
      obtain ⟨_, _, _, ⟨_, rfl⟩ | rfl⟩ := kubeStep_updateConfigMap hstep
      · exact h
      · exact h
  | updateFlagStatus f' =>
      obtain ⟨f, phase, count, hf, hphase, rfl⟩ := hcall
      obtain ⟨hpast, _⟩ := getFlag_past hrun (mem_proj.mp hf)
      obtain ⟨old, hold, hv, hs⟩ := kubeStep_updateFlagStatus hstep
      -- the snapshot is the stored flag
      have heq : old = f := VTable.eq_of_version hpast hold hv
      subst heq
      rcases hs with ⟨_, rfl⟩ | rfl
      · exact h
      · have hpos := (honest_stored h hold).generation_pos
        exact h.write (Honest.newStatus hpos hphase)

/-- In every state that reconciles and other clients reach, starting from flags
without a status, each stored flag has observed no generation it does not have
yet; and when it has observed its current one, the status carries the current
value, the phase says whether it is disabled, and the sidecar serves the current
value. -/
theorem status_honest (nows : ι → Nat) (reqs : ι → ObjectKey) {s₀ s : Cluster}
    {ls : List (SystemLabel ι)}
    (hprogs : Interleaved (fun i => reconcile (nows i) (reqs i)) ls)
    (hrun : Run SystemStep s₀ ls s)
    (hothers : ∀ f, Label.other (OtherWrite.putFlagStatus f) ∉ ls)
    (hinit : ∀ f ∈ s₀.flags.rows.items,
      0 < f.metadata.generation ∧ f.status = {}) :
    ∀ f ∈ s.flags.rows.items,
      f.status.observedGeneration ≤ f.metadata.generation ∧
      (f.status.observedGeneration = f.metadata.generation →
        f.status.currentValue = f.spec.defaultValue ∧
        (f.status.phase = .disabled ↔ f.spec.disabled = true) ∧
        (resolveFlag f).value = f.spec.defaultValue) := by
  have hall : AllHonest s := by
    refine Run.reverse_induction (P := fun ls s =>
      Interleaved (fun i => reconcile (nows i) (reqs i)) ls →
      (∀ f, Label.other (OtherWrite.putFlagStatus f) ∉ ls) → AllHonest s)
      ?_ ?_ hrun hprogs hothers
    · intro _ _ f hf
      exact .of_empty (hinit f hf).1 (hinit f hf).2
    · intro es m l s' hpre ih hstep hprogs hothers
      have hm : AllHonest m := ih hprogs.of_append fun f hf =>
        hothers f (List.mem_append_left _ hf)
      cases l with
      | other w =>
          have hs' : s' = w.apply m := hstep
          rw [hs']
          refine honest_other hm fun f hw => hothers f ?_
          rw [hw]
          exact List.mem_append_right _ (List.mem_singleton_self _)
      | own i e =>
          have hcall : OperatorCall (nows i) (reqs i) (proj i es) e.call :=
            hprogs.call_along (P := fun i => OperatorCall (nows i) (reqs i))
              (reconcile_along (nows i) (reqs i))
          obtain ⟨c, r⟩ := e
          rcases StaleStep.cases hstep with ⟨_, rfl⟩ | hkube
          · exact hm
          · cases r with
            | error err =>
                rw [hkube.of_error]
                exact hm
            | ok v => exact honest_own hpre hcall hkube hm
  exact fun f hf => ⟨(hall f hf).observed_le, (hall f hf).right⟩

end

/-! A flag is created, edited and reconciled. -/

def honestEdits : List (SystemLabel Unit) :=
  [.other (.putFlag (sampleFlag {})),
    .other (.putFlag { sampleFlag {} with
      spec := { (sampleFlag {}).spec with disabled := true } })]

def honestCluster : Cluster :=
  (OtherWrite.putFlag { sampleFlag {} with
    spec := { (sampleFlag {}).spec with disabled := true } }).apply
    ((OtherWrite.putFlag (sampleFlag {})).apply {})

theorem status_honest_sample :
    letI := labelSelectors
    let run := (reconcile 7 ⟨"default", "dark-mode"⟩).exec KubeCall.serve
      honestCluster
    (run.2.2.flags.rows.items.map fun f =>
        (f.metadata.generation, f.status.observedGeneration)) = [(2, 2)] ∧
      ∀ f ∈ run.2.2.flags.rows.items,
        f.status.observedGeneration ≤ f.metadata.generation ∧
        (f.status.observedGeneration = f.metadata.generation →
          f.status.currentValue = f.spec.defaultValue ∧
          (f.status.phase = .disabled ↔ f.spec.disabled = true) ∧
          (resolveFlag f).value = f.spec.defaultValue) := by
  let := labelSelectors
  have hsys : ∀ s e s', CleanStep s e s' →
      SystemStep s (.own () e : SystemLabel Unit) s' :=
    fun _ _ _ h => h.kubeStep.stale
  have hpath : Interleaved
      (fun _ : Unit => reconcile 7 ⟨"default", "dark-mode"⟩)
      (honestEdits ++ ownAll () _) :=
    interleaved_single (ε := OtherWrite) (Prog.exec_path
      KubeCall.serve (reconcile 7 ⟨"default", "dark-mode"⟩) honestCluster)
  have hrun : Run SystemStep {} (honestEdits ++ ownAll () _) _ :=
    .cons rfl (.cons rfl ((Prog.exec_run KubeCall.serve
      (reconcile 7 ⟨"default", "dark-mode"⟩) honestCluster).ownAll hsys))
  have hinit : ∀ f ∈ ({} : Cluster).flags.rows.items,
      0 < f.metadata.generation ∧ f.status = {} := fun _ hf => nomatch hf
  refine ⟨by decide, status_honest (fun _ => 7)
    (fun _ => ⟨"default", "dark-mode"⟩) hpath hrun (fun f hf => ?_) hinit⟩
  rcases List.mem_append.mp hf with hf | hf
  · simp [honestEdits] at hf
  · simp [ownAll] at hf

end Vexil.Operator
