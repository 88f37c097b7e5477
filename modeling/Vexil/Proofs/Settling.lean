import Vexil.Proofs.Retry
import Vexil.Operator.Recorded

/-!
# Reconciling again

The controller watches the objects whose status it writes, so a reconcile is
followed by another one unless its status is the stored one already. Everything
a status says is a function of the flag and of the workloads it selects, and a
second reconcile finds the same (`recorded_again`), except for `lastUpdated`.
That field is the time of the reconcile. It is documented as the time of the
last change of the value, and nothing looks at the value.

A time is stored with a precision of one second. So the second reconcile changes
nothing exactly if it falls into the same second, or if there is no flag.
-/

namespace Vexil.Operator

open Vexil.Lib Vexil.Kube

/-- `metav1.Time` as it is stored, of a clock that counts nanoseconds. -/
def wholeSeconds (t : Nat) : Nat := t / 10 ^ 9

/-! ## The second reconcile -/

section
variable [Apimachinery]

/-- Two reconciles with nothing in between, and no call that fails. -/
def ReconciledTwice (req : ObjectKey) (t₁ t₂ : Nat) (s s₁ s₂ : Cluster) :
    Prop :=
  (∃ tr result,
    Completes CleanStep (reconcile (wholeSeconds t₁) req) s tr result s₁) ∧
  ∃ tr result,
    Completes CleanStep (reconcile (wholeSeconds t₂) req) s₁ tr result s₂

omit [Apimachinery] in
theorem newStatus_declared (now : Nat) {f g : FeatureFlag}
    (h : g.declared = f.declared) (phase : FlagPhase) (value : String)
    (count : Nat) :
    newStatus now g phase value count = newStatus now f phase value count := by
  have hgen : g.metadata.generation = f.metadata.generation := by
    simpa [FeatureFlag.declared] using
      congrArg (fun f : FeatureFlag => f.metadata.generation) h
  rw [newStatus, newStatus, hgen]

/-- What a reconcile records is not changed by what it does. -/
theorem recorded_again {now : Nat} {f g : FeatureFlag} {complete : Prop}
    {s s' : Cluster} (hreach : Reach f complete s s')
    (hdeclared : g.declared = f.declared) :
    recorded now g s' = recorded now f s := by
  have hspec : g.spec = f.spec := by
    simpa [FeatureFlag.declared] using
      congrArg (fun f : FeatureFlag => f.spec) hdeclared
  have hfails : envFails g = envFails f := by
    rw [envFails, envFails, hspec]
  have htargets : targets g s' = targets f s := by
    rw [← targets_declared g, hdeclared, targets_declared]
    exact targets_congr fun k => hreach.metadata k
  unfold recorded
  simp only [newStatus_declared now hdeclared, hspec, hfails, htargets]

theorem lastUpdated_recorded (now : Nat) (f : FeatureFlag) (s : Cluster) :
    (recorded now f s).lastUpdated = some now := by
  unfold recorded
  split
  · rfl
  · split
    · rfl
    · rfl

theorem twice_missing {req : ObjectKey} {t₁ t₂ : Nat} {s s₁ s₂ : Cluster}
    (hf : s.flags.get? req = none)
    (h : ReconciledTwice req t₁ t₂ s s₁ s₂) : s₂ = s₁ := by
  obtain ⟨⟨_, _, h₁⟩, ⟨_, _, h₂⟩⟩ := h
  have hkube : ∀ s e s', CleanStep s e s' → KubeStep s e s' :=
    fun _ _ _ => CleanStep.kubeStep
  obtain rfl := reconcile_missing hf (h₁.mono hkube)
  exact reconcile_missing hf (h₂.mono hkube)

/-- The second reconcile of a flag stores the status of the first one with its
own time. -/
theorem twice_stored {req : ObjectKey} {t₁ t₂ : Nat} {s s₁ s₂ : Cluster}
    {f : FeatureFlag} (hf : s.flags.get? req = some f)
    (h : ReconciledTwice req t₁ t₂ s s₁ s₂) :
    ∃ g, s₁.flags.get? req = some g ∧
      (s₂.flags.get? req = some g ↔ wholeSeconds t₁ = wholeSeconds t₂) := by
  obtain ⟨⟨_, _, h₁⟩, ⟨_, _, h₂⟩⟩ := h
  obtain ⟨g, hg, hfirst⟩ := reconcile_records hf h₁
  obtain ⟨g', hg', hsecond⟩ := reconcile_records hg h₂
  have hclean := reconcile_clean hf h₁
  have hdeclared : g.declared = f.declared := by
    have hk := hclean.declared req
    rw [flagAt, flagAt, hg, hf] at hk
    exact Option.some.inj hk
  refine ⟨g, hg, fun hsame => ?_, fun ht => ?_⟩
  · obtain rfl := Option.some.inj (hsame.symm.trans hg')
    have htimes := congrArg FeatureFlagStatus.lastUpdated
      (hfirst.symm.trans hsecond)
    rw [lastUpdated_recorded, lastUpdated_recorded] at htimes
    exact Option.some.inj htimes
  · refine reconcile_same hg ?_ h₂
    rw [hfirst, ht]
    exact (recorded_again hclean.reach hdeclared).symm

/-! ## The time over a run -/

/-- What happens to flags: the controller reconciles one, with any calls
failing, or somebody else writes something that is no status. -/
inductive FlagMove where
  | reconcile (req : ObjectKey) (t : Nat)
  | other (w : OtherWrite)

def DatedStep (s : Cluster) : FlagMove → Cluster → Prop
  | .reconcile req t, s' => Attempt req s (wholeSeconds t) s'
  | .other w, s' => (∀ f, w ≠ .putFlagStatus f) ∧ s' = w.apply s

/-- Of every flag that stays: a new time means a new value. -/
def DatesChanges (s s' : Cluster) : Prop :=
  ∀ k f f', s.flags.get? k = some f → s'.flags.get? k = some f' →
    f'.status.lastUpdated ≠ f.status.lastUpdated →
      f'.status.currentValue ≠ f.status.currentValue

/-- The status is due: its value is not the flag's, or its time is this
second. -/
def Due (s : Cluster) : FlagMove → Prop
  | .reconcile req t => ∀ f ∈ s.flags.get? req,
      f.status.currentValue ≠ f.spec.defaultValue ∨
        f.status.lastUpdated = some (wholeSeconds t)
  | .other _ => True

omit [Apimachinery] in
theorem datesChanges_of_status {s s' : Cluster}
    (h : ∀ k f f', s.flags.get? k = some f → s'.flags.get? k = some f' →
      f'.status = f.status) : DatesChanges s s' := by
  intro k f f' hf hf' hne
  rw [h k f f' hf hf'] at hne
  exact absurd rfl hne

omit [Apimachinery] in
/-- Nobody else changes a status. -/
theorem datesChanges_other {s : Cluster} {w : OtherWrite}
    (hw : ∀ f, w ≠ .putFlagStatus f) : DatesChanges s (w.apply s) := by
  refine datesChanges_of_status fun k f f' hf hf' => ?_
  by_cases hk : w.flagKey = some k
  · cases w with
    | putFlag g =>
        have hkey : g.metadata.objectKey = k := Option.some.inj hk
        subst hkey
        simp only [OtherWrite.apply, hf, Cluster.writeFlag] at hf'
        split at hf'
        · rw [hf] at hf'
          cases hf'
          rfl
        · have hnew := VTable.get?_write_self s.flags (mergeFlag f g)
          have hsame : some f' = some _ := hf'.symm.trans hnew
          cases hsame
          rfl
    | putFlagStatus g => exact absurd rfl (hw g)
    | deleteFlag key =>
        obtain rfl := Option.some.inj hk
        simp only [OtherWrite.apply, VTable.get?_remove, if_pos] at hf'
        cases hf'
    | putDeployment | deleteDeployment | putConfigMap | deleteConfigMap
    | tick => cases hk
  · rw [OtherWrite.flags_apply_ne hk, hf] at hf'
    cases hf'
    rfl

omit [Apimachinery] in
/-- A status write stores the status or does nothing. -/
theorem updateStatus_stored {now : Nat} {flag f' : FeatureFlag}
    {phase : FlagPhase} {value : String} {count : Nat} {s s' : Cluster}
    {tr : List KubeEvent} {result : Except String Result}
    (hflag : s.flags.get? flag.metadata.objectKey = some flag)
    (h : Completes KubeStep (updateStatus now flag phase value count)
      s tr result s')
    (hf' : s'.flags.get? flag.metadata.objectKey = some f') :
    f' = flag ∨ f'.status = newStatus now flag phase value count := by
  obtain ⟨r, _, hstep, _⟩ := updateStatus_call h
  cases r with
  | error err =>
      obtain rfl := hstep.of_error
      rw [hflag] at hf'
      cases hf'
      exact .inl rfl
  | ok g =>
      obtain ⟨old, hold, _, hs⟩ := kubeStep_updateFlagStatus hstep
      have hold' : s.flags.get? flag.metadata.objectKey = some old := hold
      rw [hflag] at hold'
      obtain rfl := Option.some.inj hold'
      rcases hs with ⟨_, rfl⟩ | rfl
      · rw [hflag] at hf'
        cases hf'
        exact .inl rfl
      · have hnew := VTable.get?_write_self s.flags (mergeFlagStatus flag
          { flag with status := newStatus now flag phase value count })
        have hsame : some f' = some _ := hf'.symm.trans hnew
        cases hsame
        exact .inr rfl

/-- A reconcile leaves its flag alone or gives it this time and its value. -/
theorem attempt_status {req : ObjectKey} {now : Nat} {f f' : FeatureFlag}
    {s s' : Cluster} (hf : s.flags.get? req = some f)
    (h : Attempt req s now s') (hf' : s'.flags.get? req = some f') :
    f' = f ∨ f'.status.lastUpdated = some now ∧
      f'.status.currentValue = f.spec.defaultValue := by
  obtain ⟨tr, result, h⟩ := h
  have hkey : f.metadata.objectKey = req := VTable.key_of_get? hf
  subst hkey
  have hwritten : ∀ {phase count tr' m}, m.flags = s.flags →
      Completes KubeStep (updateStatus now f phase f.spec.defaultValue count)
        m tr' result s' → f' = f ∨ f'.status.lastUpdated = some now ∧
          f'.status.currentValue = f.spec.defaultValue := by
    intro phase count tr' m hm hstatus
    rcases updateStatus_stored (by rw [hm]; exact hf) hstatus hf' with h | h
    · exact .inl h
    · exact .inr (by rw [h]; exact ⟨rfl, rfl⟩)
  have hflags : ∀ {tr r m}, f.spec.disabled = false →
      Completes KubeStep (deliver f f.spec.defaultValue) s tr r m →
      m.flags = s.flags := by
    intro tr r m hdis hdeliver
    rw [(deliver_reach hdis hdeliver).2]
  cases reconcile_cases id h with
  | unread =>
      rw [hf] at hf'
      cases hf'
      exact .inl rfl
  | disabled hg hdis hstatus =>
      obtain rfl := Option.some.inj (hf.symm.trans hg)
      exact hwritten rfl hstatus
  | failed hg hdis hdeliver hstatus | active hg hdis hdeliver hstatus =>
      obtain rfl := Option.some.inj (hf.symm.trans hg)
      exact hwritten (hflags hdis hdeliver) hstatus

theorem attempt_others {req k : ObjectKey} {now : Nat} {s s' : Cluster}
    (h : Attempt req s now s') (hk : k ≠ req) :
    s'.flags.get? k = s.flags.get? k := by
  obtain ⟨tr, result, h⟩ := h
  cases hf : s.flags.get? req with
  | none => rw [reconcile_missing hf h]
  | some f => exact (reconcile_reach hf h).others k hk

/-- A reconcile whose status is due. -/
theorem datesChanges_reconcile {req : ObjectKey} {t : Nat} {s s' : Cluster}
    (hdue : Due s (.reconcile req t))
    (h : Attempt req s (wholeSeconds t) s') : DatesChanges s s' := by
  intro k f f' hf hf' hne
  by_cases hk : k = req
  · subst hk
    rcases attempt_status hf h hf' with rfl | ⟨htime, hvalue⟩
    · exact absurd rfl hne
    · rcases hdue f hf with hvalue' | htime'
      · rw [hvalue]
        exact Ne.symm hvalue'
      · exact absurd (htime.trans htime'.symm) hne
  · rw [attempt_others h hk, hf] at hf'
    cases hf'
    exact absurd rfl hne

/-- A second reconcile with nothing in between leaves the flag as it is exactly
if there is no flag or it is the same second. And in every run in which the
status is due at each reconcile, the time of a status changes only with its
value. -/
theorem reconcile_settles_iff :
    (∀ req t₁ t₂ s s₁ s₂, ReconciledTwice req t₁ t₂ s s₁ s₂ →
      (s₂.flags.get? req = s₁.flags.get? req ↔
        s.flags.get? req = none ∨ wholeSeconds t₁ = wholeSeconds t₂)) ∧
    ∀ s es s', Run (Restrict DatedStep Due) s es s' →
      Run (fun s e s' => DatedStep s e s' ∧ DatesChanges s s') s es s' := by
  refine ⟨fun req t₁ t₂ s s₁ s₂ h => ?_, fun s es s' hrun => ?_⟩
  · cases hf : s.flags.get? req with
    | none => rw [twice_missing hf h, eq_self, true_iff]; exact .inl rfl
    | some f =>
        obtain ⟨g, hg, hiff⟩ := twice_stored hf h
        rw [hg, hiff]
        exact (or_iff_right (Option.some_ne_none f)).symm
  · refine hrun.mono fun s e s' hstep => ⟨hstep.1, ?_⟩
    cases e with
    | reconcile req t => exact datesChanges_reconcile hstep.2 hstep.1
    | other w =>
        obtain ⟨hw, rfl⟩ := hstep.1
        exact datesChanges_other hw

end

/-! A flag that is delivered nowhere, at one and at two seconds. Then its value
is changed. -/

def settleKey : ObjectKey := ⟨"default", "dark-mode"⟩

def settleFlag : FeatureFlag := sampleFlag {}

def settleCluster : Cluster where
  flags := VTable.empty.write settleFlag

/-- The cluster after a reconcile at a time. -/
def settledAt [Apimachinery] (t : Nat) (s : Cluster) : Cluster :=
  attempt settleKey (wholeSeconds t) s

theorem reconciledTwice_settledAt [Apimachinery] (t₁ t₂ : Nat) (s : Cluster) :
    ReconciledTwice settleKey t₁ t₂ s (settledAt t₁ s)
      (settledAt t₂ (settledAt t₁ s)) :=
  ⟨⟨_, _, attempt_clean _ _ _⟩, ⟨_, _, attempt_clean _ _ _⟩⟩

def settleEdit : OtherWrite :=
  .putFlag { settleFlag with spec.defaultValue := "false" }

theorem reconcile_settles_iff_sample :
    letI := labelSelectors
    let s := settleCluster
    let s₁ := settledAt (10 ^ 9) s
    let s₂ := settledAt (10 ^ 9 + 1) s₁
    let s₃ := settleEdit.apply s₂
    let s₄ := settledAt (2 * 10 ^ 9) s₃
    s₂.flags.get? settleKey = s₁.flags.get? settleKey ∧
      Run (fun s e s' => DatedStep s e s' ∧ DatesChanges s s') s
        [.reconcile settleKey (10 ^ 9), .reconcile settleKey (10 ^ 9 + 1),
          .other settleEdit, .reconcile settleKey (2 * 10 ^ 9)] s₄ := by
  let := labelSelectors
  refine ⟨(reconcile_settles_iff.1 settleKey (10 ^ 9) (10 ^ 9 + 1) settleCluster
    _ _ (reconciledTwice_settledAt _ _ _)).mpr (.inr (by decide)),
    reconcile_settles_iff.2 _ _ _ ?_⟩
  refine .cons ⟨attempt_attempt _ _ _, ?_⟩ (.cons ⟨attempt_attempt _ _ _, ?_⟩
    (.cons ⟨⟨fun f hf => ?_, rfl⟩, trivial⟩
      (.cons ⟨attempt_attempt _ _ _, ?_⟩ .nil)))
  · unfold Due
    decide
  · unfold Due
    decide
  · cases hf
  · unfold Due
    decide

/-- A second later the flag is written again, with the same value. -/
theorem second_reconcile_writes :
    letI := labelSelectors
    let s₁ := settledAt (10 ^ 9) settleCluster
    let s₂ := settledAt (2 * 10 ^ 9) s₁
    ReconciledTwice settleKey (10 ^ 9) (2 * 10 ^ 9) settleCluster s₁ s₂ ∧
      s₂.flags.get? settleKey ≠ s₁.flags.get? settleKey ∧
      ¬ DatesChanges s₁ s₂ := by
  let := labelSelectors
  refine ⟨reconciledTwice_settledAt _ _ _, by decide, fun hdates => ?_⟩
  have hstored : ((settledAt (10 ^ 9) settleCluster).flags.get? settleKey).map
      FeatureFlag.status = some ⟨.active, "true", 0, some 1, 1⟩ := by decide
  have hagain : ((settledAt (2 * 10 ^ 9)
      (settledAt (10 ^ 9) settleCluster)).flags.get? settleKey).map
      FeatureFlag.status = some ⟨.active, "true", 0, some 2, 1⟩ := by decide
  obtain ⟨f, hf, hfirst⟩ := Option.map_eq_some_iff.mp hstored
  obtain ⟨f', hf', hsecond⟩ := Option.map_eq_some_iff.mp hagain
  refine hdates settleKey f f' hf hf' ?_ ?_
  · rw [hfirst, hsecond]
    decide
  · rw [hfirst, hsecond]

end Vexil.Operator
