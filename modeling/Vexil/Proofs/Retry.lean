import Vexil.Operator.Attempt

/-!
# Retrying a reconcile

The controller's retry is to run `Reconcile` again, so what has to be shown is
that the half-done work of a failed attempt is neither lost nor in the way.

An attempt moves each Deployment and each ConfigMap to what the flag asks for
or leaves it alone, and the flag goes on asking for the same thing. Both
operators are idempotent. So through any number of attempts every object is
either the original one or the desired one, `Towards` says, and one attempt in
which no call fails takes all of them to the desired one, from wherever they
are. From then on no attempt finds anything to write.
-/

namespace Vexil.Operator

open Vexil.Lib Vexil.Kube

section
variable [Apimachinery]

/-- One attempt at the flag `req`, at some time, with any calls failing. -/
def Attempt (req : ObjectKey) (s : Cluster) (now : Nat) (s' : Cluster) : Prop :=
  ∃ tr result, Completes KubeStep (reconcile now req) s tr result s'

/-- The one attempt in which no call fails. -/
def attempt (req : ObjectKey) (now : Nat) (s : Cluster) : Cluster :=
  ((reconcile now req).exec KubeCall.serve s).2.2

/-- An attempt in which the calls fail by a plan. -/
def attemptPlan (req : ObjectKey) (now : Nat) (plan : List (Option String))
    (s : Cluster) : Cluster :=
  ((reconcile now req).exec KubeCall.servePlan (plan, s)).2.2.2

theorem attempt_clean (req : ObjectKey) (now : Nat) (s : Cluster) :
    Completes CleanStep (reconcile now req) s
      ((reconcile now req).exec KubeCall.serve s).1
      ((reconcile now req).exec KubeCall.serve s).2.1 (attempt req now s) :=
  Prog.exec_completes KubeCall.serve (reconcile now req) s

theorem attempt_attempt (req : ObjectKey) (now : Nat) (s : Cluster) :
    Attempt req s now (attempt req now s) :=
  ⟨_, _, (attempt_clean req now s).mono fun _ _ _ => CleanStep.kubeStep⟩

theorem attemptPlan_completes (req : ObjectKey) (now : Nat)
    (plan : List (Option String)) (s : Cluster) :
    Completes KubeStep (reconcile now req) s
      ((reconcile now req).exec KubeCall.servePlan (plan, s)).1
      ((reconcile now req).exec KubeCall.servePlan (plan, s)).2.1
      (attemptPlan req now plan s) := by
  have h := Prog.exec_completes KubeCall.servePlan (reconcile now req) (plan, s)
  exact ⟨h.1, h.2.map_state Prod.snd fun _ _ _ => servePlan_kubeStep⟩

theorem attempt_attemptPlan (req : ObjectKey) (now : Nat)
    (plan : List (Option String)) (s : Cluster) :
    Attempt req s now (attemptPlan req now plan s) :=
  ⟨_, _, attemptPlan_completes req now plan s⟩

/-! ## Between the original and the desired -/

/-- Every object is the one of `s₀` or the one `f` asks for in its place. -/
structure Towards (f : FeatureFlag) (s₀ s : Cluster) : Prop where
  deployments : ∀ k, deployAt s k = deployAt s₀ k ∨
    deployAt s k = (deployAt s₀ k).map (desiredDeployment f)
  configMaps : ∀ k, configMapAt s k = configMapAt s₀ k ∨
    configMapAt s k = desiredConfigMap f k (configMapAt s₀ k)

theorem Towards.refl (f : FeatureFlag) (s : Cluster) : Towards f s s :=
  ⟨fun _ => .inl rfl, fun _ => .inl rfl⟩

/-- From either end the desired objects are the same. -/
theorem Towards.desired {f : FeatureFlag} {s₀ s : Cluster}
    (h : Towards f s₀ s) (k : ObjectKey) :
    (deployAt s k).map (desiredDeployment f) =
        (deployAt s₀ k).map (desiredDeployment f) ∧
      desiredConfigMap f k (configMapAt s k) =
        desiredConfigMap f k (configMapAt s₀ k) := by
  constructor
  · rcases h.deployments k with hd | hd
    · rw [hd]
    · rw [hd, Option.map_map]
      congr 1
      exact funext (desiredDeployment_idem f)
  · rcases h.configMaps k with hc | hc
    · rw [hc]
    · rw [hc, desiredConfigMap_idem]

theorem Towards.step {f : FeatureFlag} {s₀ s s' : Cluster}
    (h : Towards f s₀ s) {complete : Prop} (hreach : Reach f complete s s') :
    Towards f s₀ s' := by
  constructor
  · intro k
    rcases hreach.deployments k with hd | hd
    · rw [hd]
      exact h.deployments k
    · rw [hd, (h.desired k).1]
      exact .inr rfl
  · intro k
    rcases hreach.configMaps k with hc | hc
    · rw [hc]
      exact h.configMaps k
    · rw [hc, (h.desired k).2]
      exact .inr rfl

/-! ## The run -/

/-- What holds after any number of attempts on a flag declared as `f`. -/
structure Retrying (req : ObjectKey) (f : FeatureFlag) (s₀ s : Cluster) :
    Prop where
  flag : flagAt s req = some f.declared
  towards : Towards f s₀ s

theorem Retrying.attempt {req : ObjectKey} {f : FeatureFlag} {now : Nat}
    {s₀ s s' : Cluster} (h : Retrying req f s₀ s) (hs : Attempt req s now s') :
    Retrying req f s₀ s' := by
  obtain ⟨tr, result, hrun⟩ := hs
  obtain ⟨g, hg, hgf⟩ := flagAt_eq_some h.flag
  have hrec := reconcile_reach hg hrun
  exact ⟨(hrec.declared req).trans h.flag,
    h.towards.step (hrec.reach.congr hgf)⟩

theorem Retrying.run {req : ObjectKey} {f : FeatureFlag} {s₀ s : Cluster}
    {nows : List Nat} (hf : flagAt s₀ req = some f.declared)
    (h : Run (Attempt req) s₀ nows s) : Retrying req f s₀ s :=
  h.invariant (fun _ _ _ hI hs => hI.attempt hs) ⟨hf, .refl f s₀⟩

/-- After an attempt in which no call fails all objects are the desired ones
of the original cluster. -/
theorem Retrying.clean {req : ObjectKey} {f : FeatureFlag} {s₀ s : Cluster}
    (h : Retrying req f s₀ s) (now : Nat) (k : ObjectKey) :
    deployAt (Operator.attempt req now s) k =
        (deployAt s₀ k).map (desiredDeployment f) ∧
      configMapAt (Operator.attempt req now s) k =
        desiredConfigMap f k (configMapAt s₀ k) := by
  obtain ⟨g, hg, hgf⟩ := flagAt_eq_some h.flag
  have hreach := (reconcile_clean hg (attempt_clean req now s)).reach.congr hgf
  constructor
  · rw [hreach.allDeployments trivial, (h.towards.desired k).1]
  · rw [hreach.allConfigMaps trivial, (h.towards.desired k).2]

theorem Retrying.settled {req : ObjectKey} {f : FeatureFlag} {s₀ s : Cluster}
    (h : Retrying req f s₀ s) (now : Nat) :
    Settled f (Operator.attempt req now s) := by
  constructor
  · intro k
    rw [(h.clean now k).1, Option.map_map]
    congr 1
    exact (funext (desiredDeployment_idem f)).symm
  · intro k
    rw [(h.clean now k).2, desiredConfigMap_idem]

theorem Settled.attempt {req : ObjectKey} {f : FeatureFlag} {now : Nat}
    {s s' : Cluster} (hflag : flagAt s req = some f.declared)
    (h : Settled f s) (hs : Attempt req s now s') :
    flagAt s' req = some f.declared ∧ Settled f s' := by
  obtain ⟨tr, result, hrun⟩ := hs
  obtain ⟨g, hg, hgf⟩ := flagAt_eq_some hflag
  have hrec := reconcile_reach hg hrun
  have hreach := hrec.reach.congr hgf
  have hd : ∀ k, deployAt s' k = deployAt s k := by
    intro k
    rcases hreach.deployments k with hd | hd
    · exact hd
    · exact hd.trans (h.deployments k).symm
  have hc : ∀ k, configMapAt s' k = configMapAt s k := by
    intro k
    rcases hreach.configMaps k with hc | hc
    · exact hc
    · exact hc.trans (h.configMaps k).symm
  refine ⟨(hrec.declared req).trans hflag, ⟨fun k => ?_, fun k => ?_⟩⟩
  · rw [hd]
    exact h.deployments k
  · rw [hc]
    exact h.configMaps k

/-- A settled cluster stays settled through any attempts, and none of them
writes a Deployment or a ConfigMap. -/
theorem Settled.no_writes {req : ObjectKey} {f : FeatureFlag} {s s₁ s₂ : Cluster}
    {nows : List Nat} (hflag : flagAt s req = some f.declared)
    (h : Settled f s) (hrun : Run (Attempt req) s nows s₁) {now : Nat}
    {tr : List KubeEvent} {result : Except String Result}
    (hnext : Completes KubeStep (reconcile now req) s₁ tr result s₂) :
    ∀ e ∈ tr, isWorkloadWrite e.call = false := by
  have hI : flagAt s₁ req = some f.declared ∧ Settled f s₁ :=
    hrun.invariant (I := fun s => flagAt s req = some f.declared ∧ Settled f s)
      (fun _ _ _ hI hs => Settled.attempt hI.1 hI.2 hs) ⟨hflag, h⟩
  obtain ⟨g, hg, hgf⟩ := flagAt_eq_some hI.1
  exact reconcile_silent hg (hI.2.congr hgf.symm) hnext

/-- Attempts in which any calls fail, and then one in which none does, leave
the Deployments and ConfigMaps that the one alone would have left, and whatever
attempts follow write none of them again. -/
theorem retry_converges {req : ObjectKey} {f : FeatureFlag} {s₀ s₁ : Cluster}
    {nows : List Nat} (hf : s₀.flags.get? req = some f)
    (hattempts : Run (Attempt req) s₀ nows s₁) (now now₀ : Nat) :
    (∀ k, deployAt (attempt req now s₁) k = deployAt (attempt req now₀ s₀) k) ∧
    (∀ k, configMapAt (attempt req now s₁) k =
      configMapAt (attempt req now₀ s₀) k) ∧
    ∀ nows' s₂, Run (Attempt req) (attempt req now s₁) nows' s₂ →
      ∀ now' tr result s₃,
        Completes KubeStep (reconcile now' req) s₂ tr result s₃ →
        ∀ e ∈ tr, isWorkloadWrite e.call = false := by
  have hflag : flagAt s₀ req = some f.declared := by rw [flagAt, hf]; rfl
  have hmany := Retrying.run hflag hattempts
  have hone : Retrying req f s₀ s₀ := ⟨hflag, .refl f s₀⟩
  refine ⟨fun k => ?_, fun k => ?_, ?_⟩
  · rw [(hmany.clean now k).1, (hone.clean now₀ k).1]
  · rw [(hmany.clean now k).2, (hone.clean now₀ k).2]
  · intro nows' s₂ hrun now' tr result s₃ hnext
    have hafter := hmany.attempt (attempt_attempt req now s₁)
    exact (hmany.settled now).no_writes hafter.flag hrun hnext

end

/-! Two Deployments and a ConfigMap to create. The second `Update` of the first
attempt times out, the second attempt cannot even read the flag. -/

def retryFlag : FeatureFlag := sampleFlag {
  envVar := some { selector := some (sampleSelector "web") }
  configMap := some ⟨"flags", "dark-mode", none⟩ }

def retryCluster : Cluster where
  flags := VTable.empty.write retryFlag
  deployments :=
    (VTable.empty.write (sampleDeployment "web" "web" [])).write
      (sampleDeployment "api" "web" [{ name := "FLAG_DARK_MODE" }])

theorem retry_converges_sample :
    letI := labelSelectors
    let req : ObjectKey := ⟨"default", "dark-mode"⟩
    let s₁ := attemptPlan req 8 [some "timeout"] (attemptPlan req 7
      [none, none, none, some "timeout"] retryCluster)
    (∀ k, deployAt (attempt req 9 s₁) k =
      deployAt (attempt req 9 retryCluster) k) ∧
    (∀ k, configMapAt (attempt req 9 s₁) k =
      configMapAt (attempt req 9 retryCluster) k) ∧
    ∀ nows' s₂, Run (Attempt req) (attempt req 9 s₁) nows' s₂ →
      ∀ now' tr result s₃,
        Completes KubeStep (reconcile now' req) s₂ tr result s₃ →
        ∀ e ∈ tr, isWorkloadWrite e.call = false :=
  letI := labelSelectors
  retry_converges (f := VTable.empty.stamp retryFlag) rfl
    (.cons (attempt_attemptPlan _ 7 _ _)
      (.cons (attempt_attemptPlan _ 8 _ _) .nil)) 9 9

end Vexil.Operator
