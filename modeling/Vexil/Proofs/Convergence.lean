import Mathlib.Data.Finset.Basic
import Vexil.Proofs.Retry

/-!
# What the watches bring about

The controller is set up with one watch, on FeatureFlags. So a key enters the
work queue when the stored flag changes, by whoever's write, and once more when
a reconcile returns an error. Nothing enters it when a Deployment changes.

At quiescence the queue is empty and the last reconcile of every flag recorded
`Active`. One would like every selected Deployment to carry its value then, and
the guide for a first flag relies on it: it creates the flag, and then the
Deployment that is to receive it. That Deployment never gets the variable.

The property does hold along runs in which no value goes missing behind the
queue's back. There are two ways in which one can: a user stores a Deployment
without it, or a reconcile of another flag overwrites it. `Watched` excludes
both, as a condition on the state before the step, and the invariant `Covers`
carries the rest: a flag is pending, or all its Deployments have its value.
-/

namespace Vexil.Operator

open Vexil.Lib Vexil.Kube

section
variable [Apimachinery]

/-! ## The controller with its queue -/

structure Controller where
  cluster : Cluster
  queue : Finset ObjectKey
  /-- The last reconcile of the flag recorded `Active`. -/
  lastOk : ObjectKey → Bool

inductive ControllerStep where
  | user (w : OtherWrite)
  | reconcile (req : ObjectKey) (now : Nat) (plan : List (Option String))

/-- The key, if its flag changed. -/
def changedFlag (s s' : Cluster) (k : ObjectKey) : Finset ObjectKey :=
  if s'.flags.get? k = s.flags.get? k then ∅ else {k}

/-- `For(&FeatureFlag{})`: a change of a flag queues it. A reconcile takes a key
from the queue, and an error puts it back. -/
def Controller.next (st : Controller) : ControllerStep → Option Controller
  | .user w =>
      let s' := w.apply st.cluster
      some { st with
        cluster := s'
        queue := st.queue ∪
          (w.flagKey.elim ∅ fun k => changedFlag st.cluster s' k) }
  | .reconcile req now plan =>
      if req ∈ st.queue then
        let run := (reconcile now req).exec KubeCall.servePlan (plan, st.cluster)
        let s' := run.2.2.2
        some {
          cluster := s'
          queue := st.queue.erase req ∪ changedFlag st.cluster s' req ∪
            (match run.2.1 with
            | .ok _ => ∅
            | .error _ => {req})
          lastOk := Function.update st.lastOk req
            (recordedPhase run.1 = some .active) }
      else none

def ControllerNext (st : Controller) (e : ControllerStep) (st' : Controller) :
    Prop := st.next e = some st'

/-- A controller that has just listed the flags of a cluster. -/
def Controller.start (s : Cluster) : Controller where
  cluster := s
  queue := (s.flags.rows.items.map fun f => f.metadata.objectKey).toFinset
  lastOk _ := false

/-! ## Quiescence and convergence -/

/-- Some reconcile of the flag is still to come, or to succeed. -/
def Controller.Pending (st : Controller) (k : ObjectKey) : Prop :=
  k ∈ st.queue ∨ st.lastOk k = false

/-- The Deployments a flag selects carry its value. -/
def Carried (s : Cluster) (f : FeatureFlag) (t : EnvTarget) : Prop :=
  ∀ d ∈ s.deployments.rows.items, t.selects d = true →
    HasEnv t.envName f.spec.defaultValue d

def Controller.Quiescent (st : Controller) : Prop :=
  st.queue = ∅ ∧ ∀ f ∈ st.cluster.flags.rows.items, ∀ t ∈ envTarget f,
    st.lastOk f.metadata.objectKey = true

def Controller.Converged (st : Controller) : Prop :=
  ∀ f ∈ st.cluster.flags.rows.items, ∀ t ∈ envTarget f,
    Carried st.cluster f t

/-- No value goes missing unless its flag is pending: a Deployment that a user
stores carries the values of the flags that select it, and a reconcile meets no
other flag that wants another value in the same variable of the same
Deployment. -/
def Watched (st : Controller) : ControllerStep → Prop
  | .user (.putDeployment d) =>
      ∀ f ∈ st.cluster.flags.rows.items, ∀ t ∈ envTarget f,
        t.selects d = true → HasEnv t.envName f.spec.defaultValue d ∨
          st.Pending f.metadata.objectKey
  | .reconcile req _ _ =>
      ∀ g ∈ st.cluster.flags.rows.items, g.metadata.objectKey = req →
      ∀ f ∈ st.cluster.flags.rows.items, f.metadata.objectKey ≠ req →
      ∀ u ∈ envTarget g, ∀ t ∈ envTarget f, t.envName = u.envName →
        f.spec.defaultValue ≠ g.spec.defaultValue →
      ∀ d ∈ st.cluster.deployments.rows.items, u.selects d = true →
        t.selects d = true → st.Pending f.metadata.objectKey
  | _ => True

/-- The invariant: what is not pending is carried. -/
def Covers (st : Controller) : Prop :=
  ∀ f ∈ st.cluster.flags.rows.items, ∀ t ∈ envTarget f,
    st.Pending f.metadata.objectKey ∨ Carried st.cluster f t

/-! ## A user's write -/

omit [Apimachinery] in
theorem mem_flags {s : Cluster} {f : FeatureFlag} :
    f ∈ s.flags.rows.items ↔ s.flags.get? f.metadata.objectKey = some f :=
  ⟨fun h => Table.get?_of_mem h, fun h => Table.mem_of_get? h⟩

omit [Apimachinery] in
theorem mem_deployments {s : Cluster} {d : Deployment} :
    d ∈ s.deployments.rows.items ↔
      s.deployments.get? d.metadata.objectKey = some d :=
  ⟨fun h => Table.get?_of_mem h, fun h => Table.mem_of_get? h⟩

omit [Apimachinery] in
/-- A Deployment that is stored after a user's write is the one written, or was
stored before. -/
theorem deployments_apply {w : OtherWrite} {s : Cluster} {d : Deployment}
    (h : d ∈ (w.apply s).deployments.rows.items) :
    d ∈ s.deployments.rows.items ∨
      ∃ d₀, w = .putDeployment d₀ ∧ d = s.deployments.stamp d₀ := by
  cases w with
  | putDeployment d₀ =>
      rcases Table.mem_set h with rfl | h
      · exact .inr ⟨d₀, rfl, rfl⟩
      · exact .inl h
  | deleteDeployment key => exact .inl (Table.mem_erase h)
  | putFlag f =>
      simp only [OtherWrite.apply] at h
      split at h
      · exact .inl h
      · rw [deployments_writeFlag] at h
        exact .inl h
  | putFlagStatus f =>
      simp only [OtherWrite.apply] at h
      split at h
      · exact .inl h
      · rw [deployments_writeFlag] at h
        exact .inl h
  | deleteFlag | putConfigMap | deleteConfigMap | tick => exact .inl h

theorem covers_user {st st' : Controller} {w : OtherWrite}
    (hsafe : Watched st (.user w)) (hI : Covers st)
    (h : st.next (.user w) = some st') : Covers st' := by
  simp only [Controller.next, Option.some.injEq] at h
  subst h
  intro f hf t ht
  -- either the flag is new and queued, or it was stored before
  by_cases hchanged : (w.apply st.cluster).flags.get? f.metadata.objectKey =
      st.cluster.flags.get? f.metadata.objectKey
  · have hold : f ∈ st.cluster.flags.rows.items := by
      rw [mem_flags, ← hchanged]
      exact mem_flags.mp hf
    have hpending : st.Pending f.metadata.objectKey →
        Controller.Pending { st with
          cluster := w.apply st.cluster
          queue := st.queue ∪ (w.flagKey.elim ∅ fun k =>
            changedFlag st.cluster (w.apply st.cluster) k) }
          f.metadata.objectKey := by
      rintro (h | h)
      · exact .inl (Finset.mem_union_left _ h)
      · exact .inr h
    rcases hI f hold t ht with h | hcarried
    · exact .inl (hpending h)
    · by_cases hp : st.Pending f.metadata.objectKey
      · exact .inl (hpending hp)
      · refine .inr fun d hd hs => ?_
        rcases deployments_apply hd with hd | ⟨d₀, rfl, rfl⟩
        · exact hcarried d hd hs
        · have hsel : t.selects (st.cluster.deployments.stamp d₀) =
              t.selects d₀ := selects_congr ht rfl rfl
          exact (hsafe f hold t ht (hsel ▸ hs)).resolve_right hp
  · refine .inl (.inl (Finset.mem_union_right _ ?_))
    have hkey : w.flagKey = some f.metadata.objectKey := by
      by_contra hne
      exact hchanged (OtherWrite.flags_apply_ne hne)
    rw [hkey, Option.elim_some, changedFlag, if_neg hchanged]
    exact Finset.mem_singleton_self _

/-! ## A reconcile -/

/-- What a reconcile leaves in a Deployment for a flag it is not about. -/
theorem carried_other {f g : FeatureFlag} {t : EnvTarget} {d : Deployment}
    (hagree : ∀ u ∈ envTarget g, u.selects d = true → t.envName = u.envName →
      f.spec.defaultValue = g.spec.defaultValue)
    (h : HasEnv t.envName f.spec.defaultValue d) :
    HasEnv t.envName f.spec.defaultValue (desiredDeployment g d) := by
  cases hu : envTarget g with
  | none =>
      rw [desiredDeployment_of_none hu]
      exact h
  | some u =>
      cases hs : u.selects d with
      | false =>
          rw [desiredDeployment_of_not_selects hu hs]
          exact h
      | true =>
          rw [desiredDeployment_of_selects hu hs]
          by_cases hname : t.envName = u.envName
          · rw [hname, hagree u hu hs hname]
            exact hasEnv_injected _ _ _ _
          · exact hasEnv_injected_ne hname h

/-- Each Deployment after an attempt comes from one before it. -/
theorem Reach.deployment {g : FeatureFlag} {complete : Prop} {s s' : Cluster}
    (h : Reach g complete s s') {d : Deployment}
    (hd : d ∈ s'.deployments.rows.items) :
    ∃ d₀ ∈ s.deployments.rows.items,
      d.metadata.objectKey = d₀.metadata.objectKey ∧
      (d.content = d₀.content ∨ d.content = desiredDeployment g d₀.content) ∧
      (complete → d.content = desiredDeployment g d₀.content) := by
  have hat : deployAt s' d.metadata.objectKey = some d.content := by
    rw [deployAt, mem_deployments.mp hd]
    rfl
  cases hd₀ : s.deployments.get? d.metadata.objectKey with
  | none =>
      have hnone : deployAt s d.metadata.objectKey = none := by
        rw [deployAt, hd₀]
        rfl
      rcases h.deployments d.metadata.objectKey with hsame | hdes
      · rw [hat, hnone] at hsame
        cases hsame
      · rw [hat, hnone] at hdes
        cases hdes
  | some d₀ =>
      have hat₀ : deployAt s d.metadata.objectKey = some d₀.content := by
        rw [deployAt, hd₀]
        rfl
      refine ⟨d₀, Table.mem_of_get? hd₀, (VTable.key_of_get? hd₀).symm, ?_, ?_⟩
      · rcases h.deployments d.metadata.objectKey with hsame | hdes
        · rw [hat, hat₀] at hsame
          exact .inl (Option.some.inj hsame)
        · rw [hat, hat₀] at hdes
          exact .inr (Option.some.inj hdes)
      · intro hc
        have hdes := h.allDeployments hc d.metadata.objectKey
        rw [hat, hat₀] at hdes
        exact Option.some.inj hdes

/-- The flag of a reconcile that recorded `Active` is carried. -/
theorem carried_own {now : Nat} {s s' : Cluster} {tr : List KubeEvent}
    {result : Except String Result} {f : FeatureFlag} {t : EnvTarget}
    (hrun : Completes KubeStep (reconcile now f.metadata.objectKey) s tr result
      s') (hok : recordedPhase tr = some .active)
    (hf : f ∈ s'.flags.rows.items) (ht : envTarget f = some t) :
    Carried s' f t := by
  have hf' : flagAt s' f.metadata.objectKey = some f.declared := by
    rw [flagAt, mem_flags.mp hf]
    rfl
  cases hg : s.flags.get? f.metadata.objectKey with
  | none =>
      have hsame := reconcile_missing hg hrun
      rw [hsame, flagAt, hg] at hf'
      cases hf'
  | some g =>
      have hrec := reconcile_reach hg hrun
      have hgf : g.declared = f.declared := by
        rw [hrec.declared, flagAt, hg] at hf'
        exact Option.some.inj hf'
      have htg : envTarget g = some t := by
        rw [← envTarget_declared, hgf, envTarget_declared]
        exact ht
      have hvalue : g.spec.defaultValue = f.spec.defaultValue :=
        congrArg (fun x => x.spec.defaultValue) hgf
      intro d hd hs
      obtain ⟨d₀, _, _, _, hall⟩ := hrec.reach.deployment hd
      have hcontent := hall hok
      have hs₀ : t.selects d₀.content = true := by
        rw [← selects_desired htg, ← hcontent]
        exact (selects_content htg d).trans hs
      have hhas : HasEnv t.envName f.spec.defaultValue d.content := by
        rw [hcontent, desiredDeployment_of_selects htg hs₀, hvalue]
        exact hasEnv_injected _ _ _ _
      exact hhas

/-- Another flag stays what it is, and stays carried unless the reconciled one
wants the same variable of the same Deployment. -/
theorem carried_others {req : ObjectKey} {now : Nat} {s s' : Cluster}
    {tr : List KubeEvent} {result : Except String Result} {f : FeatureFlag}
    {t : EnvTarget} (hrun : Completes KubeStep (reconcile now req) s tr result s')
    (hkey : f.metadata.objectKey ≠ req) (hf : f ∈ s'.flags.rows.items)
    (ht : envTarget f = some t) :
    f ∈ s.flags.rows.items ∧ (Carried s f t →
      (∀ g, s.flags.get? req = some g → ∀ u ∈ envTarget g,
        t.envName = u.envName → f.spec.defaultValue ≠ g.spec.defaultValue →
        ∀ d ∈ s.deployments.rows.items, u.selects d = true →
          t.selects d = true → False) → Carried s' f t) := by
  cases hg : s.flags.get? req with
  | none =>
      obtain rfl := reconcile_missing hg hrun
      exact ⟨hf, fun h _ => h⟩
  | some g =>
      have hrec := reconcile_reach hg hrun
      refine ⟨?_, fun hcarried hagree d hd hs => ?_⟩
      · rw [mem_flags, ← hrec.others _ hkey]
        exact mem_flags.mp hf
      · obtain ⟨d₀, hd₀, _, hcontent, _⟩ := hrec.reach.deployment hd
        have hs₀ : t.selects d₀ = true := by
          have hsame : t.selects d.content = t.selects d₀.content := by
            rcases hcontent with h | h
            · rw [h]
            · rw [h, selects_desired ht]
          rw [← selects_content ht d₀, ← hsame, selects_content ht d, hs]
        have hhas : HasEnv t.envName f.spec.defaultValue d₀.content :=
          hcarried d₀ hd₀ hs₀
        have hd : HasEnv t.envName f.spec.defaultValue d.content := by
          rcases hcontent with h | h
          · rw [h]
            exact hhas
          · rw [h]
            refine carried_other (fun u hu hus hname => ?_) hhas
            by_contra hne
            have hus₀ : u.selects d₀ = true :=
              (selects_content hu d₀).symm.trans hus
            exact hagree g rfl u hu hname hne d₀ hd₀ hus₀ hs₀
        exact hd

theorem covers_reconcile {st st' : Controller} {req : ObjectKey} {now : Nat}
    {plan : List (Option String)}
    (hsafe : Watched st (.reconcile req now plan)) (hI : Covers st)
    (h : st.next (.reconcile req now plan) = some st') : Covers st' := by
  have hrun := attemptPlan_completes req now plan st.cluster
  unfold attemptPlan at hrun
  simp only [Controller.next] at h
  split at h
  · generalize (reconcile now req).exec KubeCall.servePlan (plan, st.cluster) =
      run at h hrun
    obtain rfl := Option.some.inj h
    intro f hf t ht
    by_cases hkey : f.metadata.objectKey = req
    · subst hkey
      by_cases hok : recordedPhase run.1 = some .active
      · exact .inr (carried_own hrun hok hf ht)
      · refine .inl (.inr ?_)
        show Function.update st.lastOk f.metadata.objectKey _ _ = false
        rw [Function.update_self]
        exact decide_eq_false hok
    · obtain ⟨hold, hstays⟩ := carried_others hrun hkey hf ht
      by_cases hp : st.Pending f.metadata.objectKey
      · refine .inl ?_
        rcases hp with hq | hok
        · refine .inl (Finset.mem_union_left _ (Finset.mem_union_left _ ?_))
          exact Finset.mem_erase.mpr ⟨hkey, hq⟩
        · refine .inr ?_
          show Function.update st.lastOk req _ f.metadata.objectKey = false
          rw [Function.update_of_ne hkey]
          exact hok
      · have hcarried := (hI f hold t ht).resolve_left hp
        refine .inr (hstays hcarried fun g hg u hu hname hne d hd hus hts => ?_)
        exact hp (hsafe g (Table.mem_of_get? hg) (VTable.key_of_get? hg) f hold
          hkey u hu t ht hname hne d hd hus hts)
  · cases h

/-! ## The run -/

theorem covers_start (s : Cluster) : Covers (Controller.start s) :=
  fun _ _ _ _ => .inl (.inr rfl)

/-- Along every run in which no value goes missing behind the queue's back,
whenever the queue is empty and the last reconcile of every flag succeeded,
every selected Deployment carries its flag's value in all its containers. -/
theorem converged_of_watched {s : Cluster} {st : Controller}
    {es : List ControllerStep}
    (hrun : Run (Restrict ControllerNext Watched) (Controller.start s) es st)
    (hquiet : st.Quiescent) : st.Converged := by
  have hI : Covers st := by
    refine hrun.invariant (fun st e st' hI hstep => ?_) (covers_start s)
    obtain ⟨hnext, hsafe⟩ := hstep
    cases e with
    | user w => exact covers_user hsafe hI hnext
    | reconcile req now plan => exact covers_reconcile hsafe hI hnext
  intro f hf t ht
  refine (hI f hf t ht).resolve_left ?_
  rintro (hq | hok)
  · rw [hquiet.1] at hq
    exact absurd hq (Finset.notMem_empty _)
  · rw [hquiet.2 f hf t ht] at hok
    cases hok

/-! ## Runs on concrete clusters -/

instance (st : Controller) (e : ControllerStep) : Decidable (Watched st e) :=
  match e with
  | .user (.putDeployment d) =>
      inferInstanceAs (Decidable
        (∀ f ∈ st.cluster.flags.rows.items, ∀ t ∈ envTarget f,
          t.selects d = true → HasEnv t.envName f.spec.defaultValue d ∨
            (f.metadata.objectKey ∈ st.queue ∨
              st.lastOk f.metadata.objectKey = false)))
  | .reconcile req _ _ =>
      inferInstanceAs (Decidable
        (∀ g ∈ st.cluster.flags.rows.items, g.metadata.objectKey = req →
          ∀ f ∈ st.cluster.flags.rows.items, f.metadata.objectKey ≠ req →
          ∀ u ∈ envTarget g, ∀ t ∈ envTarget f, t.envName = u.envName →
            f.spec.defaultValue ≠ g.spec.defaultValue →
          ∀ d ∈ st.cluster.deployments.rows.items, u.selects d = true →
            t.selects d = true → (f.metadata.objectKey ∈ st.queue ∨
              st.lastOk f.metadata.objectKey = false)))
  | .user (.putFlag _) | .user (.putFlagStatus _) | .user (.deleteFlag _)
  | .user (.deleteDeployment _) | .user (.putConfigMap _)
  | .user (.deleteConfigMap _) | .user (.tick _) =>
      inferInstanceAs (Decidable True)

instance (st : Controller) : Decidable st.Quiescent :=
  inferInstanceAs (Decidable (st.queue = ∅ ∧
    ∀ f ∈ st.cluster.flags.rows.items, ∀ t ∈ envTarget f,
      st.lastOk f.metadata.objectKey = true))

instance (st : Controller) : Decidable st.Converged :=
  inferInstanceAs (Decidable (∀ f ∈ st.cluster.flags.rows.items,
    ∀ t ∈ envTarget f, ∀ d ∈ st.cluster.deployments.rows.items,
      t.selects d = true → HasEnv t.envName f.spec.defaultValue d))

/-- A step, if it is a watched one. -/
def Controller.nextWatched (st : Controller) (e : ControllerStep) :
    Option Controller :=
  if Watched st e then st.next e else none

theorem nextWatched_some {st st' : Controller} {e : ControllerStep}
    (h : st.nextWatched e = some st') :
    Restrict ControllerNext Watched st e st' := by
  unfold Controller.nextWatched at h
  split at h
  · next hw => exact ⟨h, hw⟩
  · cases h

end

def convergenceFlag : FeatureFlag := sampleFlag {
  envVar := some { selector := some (sampleSelector "web") } }

/-- The Deployment is there before the flag. The second reconcile is the one
that the status write of the first has queued. -/
def deploymentFirst : List ControllerStep :=
  [.user (.putDeployment (sampleDeployment "web" "web" [])),
    .user (.putFlag convergenceFlag),
    .reconcile ⟨"default", "dark-mode"⟩ 7 [],
    .reconcile ⟨"default", "dark-mode"⟩ 7 []]

theorem converged_of_watched_sample :
    letI := labelSelectors
    ∃ st, steps Controller.nextWatched deploymentFirst (Controller.start {}) =
      some st ∧ st.Converged :=
  letI := labelSelectors
  have hsome : (steps Controller.nextWatched deploymentFirst
      (Controller.start {})).isSome := by decide
  have hquiet : (Option.get _ hsome).Quiescent := by decide +revert
  ⟨_, (Option.some_get hsome).symm,
    converged_of_watched (run_of_steps (fun _ _ _ => nextWatched_some)
      (Option.some_get hsome).symm) hquiet⟩

/-- The order of the guide for a first flag: the flag, and then a Deployment
with its label. -/
def flagFirst : List ControllerStep :=
  [.user (.putFlag convergenceFlag),
    .reconcile ⟨"default", "dark-mode"⟩ 7 [],
    .reconcile ⟨"default", "dark-mode"⟩ 7 [],
    .user (.putDeployment (sampleDeployment "web" "web" []))]

/-- Nothing is queued, the last reconcile succeeded, and the Deployment does
not have the variable. -/
theorem flag_first_not_converged :
    letI := labelSelectors
    ∃ st, Run ControllerNext (Controller.start {}) flagFirst st ∧
      st.Quiescent ∧ ¬ st.Converged := by
  let := labelSelectors
  have hsome : (steps Controller.next flagFirst (Controller.start {})).isSome := by
    decide
  refine ⟨_, run_of_steps (fun _ _ _ h => h) (Option.some_get hsome).symm, ?_⟩
  decide +revert

end Vexil.Operator
