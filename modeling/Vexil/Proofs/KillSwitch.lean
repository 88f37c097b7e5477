import Vexil.Proofs.Retry
import Vexil.Sdk.Pod

/-!
# The kill switch

`spec.disabled` is documented as a kill switch that disables the flag globally,
and every getter of the SDK promises its caller's default for a disabled flag.
The disabled bit reaches the SDK through the sidecar only. `reconcile` returns
early for a disabled flag, before the delivery, so what an earlier reconcile
put into an env list or a ConfigMap stays there and carries no such bit.

A history is the user's edits of one flag and the reconciles of it, in any
order. Each of the three deliveries is followed through a history: a variable,
or a key, is there at the end exactly when it was there at the start or some
reconcile on the way delivered it. That makes the theorem an equivalence: after
the flag was disabled and reconciled, the getters fall back to the default if
and only if nothing was ever delivered.
-/

namespace Vexil.Operator

open Vexil.Lib Vexil.Kube Vexil.Sidecar Vexil.Sdk

section
variable [Apimachinery]

/-! ## Histories of one flag -/

inductive Move where
  | edit (spec : FeatureFlagSpec)
  | reconcile (now : Nat)

/-- An edit writes the stored flag with another spec; a reconcile is one in
which no call fails. -/
def Move.play (req : ObjectKey) : Move → Cluster → Cluster
  | .edit spec, s =>
      match s.flags.get? req with
      | none => s
      | some f => ((KubeCall.updateFlag { f with spec := spec }).serve s).2
  | .reconcile now, s => attempt req now s

def history (req : ObjectKey) (moves : List Move) (s : Cluster) : Cluster :=
  moves.foldl (fun s m => m.play req s) s

/-- Some reconcile of the history started in a state with `D`. -/
def Delivered (req : ObjectKey) (D : Cluster → Prop) :
    List Move → Cluster → Prop
  | [], _ => False
  | .edit spec :: moves, s => Delivered req D moves ((Move.edit spec).play req s)
  | .reconcile now :: moves, s =>
      D s ∨ Delivered req D moves ((Move.reconcile now).play req s)

theorem history_snoc (req : ObjectKey) (moves : List Move) (m : Move)
    (s : Cluster) :
    history req (moves ++ [m]) s = m.play req (history req moves s) := by
  rw [history, List.foldl_append]
  rfl

/-- An edit reaches no Deployment and no ConfigMap. -/
theorem edit_frame (req : ObjectKey) (spec : FeatureFlagSpec) (s : Cluster) :
    ((Move.edit spec).play req s).deployments = s.deployments ∧
      ((Move.edit spec).play req s).configMaps = s.configMaps := by
  unfold Move.play
  dsimp only
  split
  · exact ⟨rfl, rfl⟩
  · exact ⟨rfl, rfl⟩

theorem attempt_missing {req : ObjectKey} {s : Cluster} (now : Nat)
    (h : s.flags.get? req = none) : attempt req now s = s :=
  reconcile_missing h
    ((attempt_clean req now s).mono fun _ _ _ => CleanStep.kubeStep)

theorem attempt_reconciles {req : ObjectKey} {s : Cluster} {f : FeatureFlag}
    (now : Nat) (h : s.flags.get? req = some f) :
    Reconciles req f True s (attempt req now s) :=
  reconcile_clean h (attempt_clean req now s)

/-! ## Variables -/

/-- A reconcile of the flag would inject `var` into the Deployment. -/
def InjectsVar (req k : ObjectKey) (var : String) (s : Cluster) : Prop :=
  ∃ f t d, s.flags.get? req = some f ∧ envTarget f = some t ∧
    t.envName = var ∧ deployAt s k = some d ∧ t.selects d = true

/-- One move, as the container sees it. -/
theorem setsVar_play (req : ObjectKey) (var : String) {k : ObjectKey} {i : Nat}
    {s : Cluster} {c : Container} (hc : containerAt s k i = some c) (m : Move) :
    ∃ c', containerAt (m.play req s) k i = some c' ∧
      (SetsVar var c' ↔ SetsVar var c ∨
        (∃ now, m = .reconcile now) ∧ InjectsVar req k var s) := by
  cases m with
  | edit spec =>
      have hsame : containerAt ((Move.edit spec).play req s) k i =
          containerAt s k i := by
        rw [containerAt, deployAt, (edit_frame req spec s).1]
        rfl
      exact ⟨c, hsame.trans hc, by simp⟩
  | reconcile now =>
      obtain ⟨d, hd, hi⟩ := Option.bind_eq_some_iff.mp hc
      show ∃ c', containerAt (attempt req now s) k i = some c' ∧ _
      cases hf : s.flags.get? req with
      | none =>
          rw [attempt_missing now hf]
          exact ⟨c, hc, by simp [InjectsVar, hf]⟩
      | some f =>
          have hall := (attempt_reconciles now hf).reach.allDeployments trivial k
          rw [hd, Option.map_some] at hall
          cases ht : envTarget f with
          | none =>
              rw [desiredDeployment_of_none ht] at hall
              exact ⟨c, by rw [containerAt, hall]; exact hi,
                by simp [InjectsVar, hf, ht]⟩
          | some t =>
              cases hs : t.selects d with
              | false =>
                  rw [desiredDeployment_of_not_selects ht hs] at hall
                  exact ⟨c, by rw [containerAt, hall]; exact hi,
                    by simp [InjectsVar, hf, ht, hd, hs]⟩
              | true =>
                  rw [desiredDeployment_of_selects ht hs] at hall
                  refine ⟨(injectContainer t.envName f.spec.defaultValue c).1,
                    ?_, ?_⟩
                  · rw [containerAt, hall, Option.bind_some,
                      containers_injected, List.getElem?_map, hi]
                    rfl
                  · rw [setsVar_injectContainer]
                    simp [InjectsVar, hf, ht, hd, hs]

/-- A container sets a variable at the end of a history when it set it at the
start or a reconcile injected it. -/
theorem setsVar_history (req : ObjectKey) (var : String) (moves : List Move)
    {k : ObjectKey} {i : Nat} {s : Cluster} {c : Container}
    (hc : containerAt s k i = some c) :
    ∃ c', containerAt (history req moves s) k i = some c' ∧
      (SetsVar var c' ↔ SetsVar var c ∨
        Delivered req (InjectsVar req k var) moves s) := by
  induction moves generalizing s c with
  | nil => exact ⟨c, hc, by simp [Delivered]⟩
  | cons m moves ih =>
      obtain ⟨c₁, hc₁, h₁⟩ := setsVar_play req var hc m
      obtain ⟨c₂, hc₂, h₂⟩ := ih hc₁
      refine ⟨c₂, hc₂, h₂.trans ?_⟩
      rw [h₁]
      cases m with
      | edit spec => simp [Delivered]
      | reconcile now => simp [Delivered, or_assoc]

/-! ## Keys of a ConfigMap -/

/-- A reconcile of the flag would put `key` there. On a ConfigMap that exists
an empty value is not written, because a missing key reads as empty. -/
def WritesKey (req k : ObjectKey) (key : String) (s : Cluster) : Prop :=
  ∃ f delivery, s.flags.get? req = some f ∧
    configMapTarget f = some delivery ∧
    k = ⟨f.metadata.ns, delivery.configMapName⟩ ∧ delivery.key = key ∧
    (configMapAt s k = none ∨ f.spec.defaultValue ≠ "")

theorem hasKey_play {req k : ObjectKey} {key : String} {s : Cluster}
    (m : Move) : HasKey k key (m.play req s) ↔ HasKey k key s ∨
      (∃ now, m = .reconcile now) ∧ WritesKey req k key s := by
  cases m with
  | edit spec =>
      rw [HasKey, configMapAt, (edit_frame req spec s).2]
      simp [HasKey, configMapAt]
  | reconcile now =>
      show HasKey k key (attempt req now s) ↔ _
      cases hf : s.flags.get? req with
      | none => simp [attempt_missing now hf, WritesKey, hf]
      | some f =>
          have hall := (attempt_reconciles now hf).reach.allConfigMaps trivial k
          rw [HasKey, hall]
          cases ht : configMapTarget f with
          | none =>
              rw [desiredConfigMap_of_none ht]
              simp [HasKey, WritesKey, hf, ht]
          | some delivery =>
              rw [desiredConfigMap_of_some ht]
              by_cases hk : k = ⟨f.metadata.ns, delivery.configMapName⟩
              · rw [if_pos hk]
                simp only [Option.some.injEq, exists_eq_left',
                  deliveredConfigMap_hasKey]
                simp [HasKey, WritesKey, hf, ht, ← hk]
              · rw [if_neg hk]
                simp [HasKey, WritesKey, hf, ht, hk]

theorem hasKey_history {req k : ObjectKey} {key : String} {moves : List Move}
    {s : Cluster} : HasKey k key (history req moves s) ↔
      HasKey k key s ∨ Delivered req (WritesKey req k key) moves s := by
  induction moves generalizing s with
  | nil => simp [history, Delivered]
  | cons m moves ih =>
      rw [show history req (m :: moves) s = history req moves (m.play req s)
        from rfl, ih, hasKey_play]
      cases m with
      | edit spec => simp [Delivered]
      | reconcile now => simp [Delivered, or_assoc]

/-! ## After the switch -/

/-- A disabled flag asks for nothing. -/
theorem disabled_delivers_nothing {req : ObjectKey} {s : Cluster}
    {f : FeatureFlag} (hf : s.flags.get? req = some f)
    (hdis : f.spec.disabled = true) (k : ObjectKey) (x : String) :
    ¬ InjectsVar req k x s ∧ ¬ WritesKey req k x s := by
  obtain ⟨henv, hcm⟩ := disabled_targets hdis
  simp [InjectsVar, WritesKey, hf, henv, hcm]

omit [Apimachinery] in
theorem mounted_defaults {s : Cluster} {k : ObjectKey} {name : String} :
    Client.Defaults ⟨configMapProvider (mounted s k)⟩ name ↔
      ¬ HasKey k name s := by
  unfold mounted HasKey configMapAt
  cases s.configMaps.get? k with
  | none => simpa using missing_defaults
  | some cm =>
      show Client.Defaults ⟨configMapProvider (.dir (orEmpty cm.data))⟩ name ↔ _
      rw [dirProvider_defaults]
      simp [ConfigMap.content]

/-- Once the flag is disabled and reconciled, a client that reads the variable
or the mounted key gets its default if and only if it would have got it at the
start and no reconcile of the history delivered a value. A client of the
sidecar always gets it. -/
theorem kill_switch_iff {req : ObjectKey} {s₀ : Cluster} {moves : List Move}
    {f : FeatureFlag} (hf : (history req moves s₀).flags.get? req = some f)
    (hdis : f.spec.disabled = true) (now : Nat) :
    let s := history req (moves ++ [.reconcile now]) s₀
    (∀ k i c₀, containerAt s₀ k i = some c₀ →
      ∃ c, containerAt s k i = some c ∧ ∀ kubelet image,
        (Client.Defaults ⟨envProvider (Kubelet.environ kubelet image c.env)⟩
            req.name ↔
          Client.Defaults ⟨envProvider (Kubelet.environ kubelet image c₀.env)⟩
            req.name ∧
          ¬ Delivered req (InjectsVar req k (flagNameToEnvVar req.name))
            moves s₀)) ∧
    (∀ k, Client.Defaults ⟨configMapProvider (mounted s k)⟩ req.name ↔
      Client.Defaults ⟨configMapProvider (mounted s₀ k)⟩ req.name ∧
      ¬ Delivered req (WritesKey req k req.name) moves s₀) ∧
    ∃ g, s.flags.get? req = some g ∧ ∀ store : FlagStore,
      Client.Defaults ⟨sidecarProvider ∅ (store.set (resolveFlag g))⟩
        req.name := by
  intro s
  have hs : s = (Move.reconcile now).play req (history req moves s₀) :=
    history_snoc req moves (.reconcile now) s₀
  have hnothing := disabled_delivers_nothing hf hdis
  refine ⟨fun k i c₀ hc₀ => ?_, fun k => ?_, ?_⟩
  · obtain ⟨c₁, hc₁, h₁⟩ :=
      setsVar_history req (flagNameToEnvVar req.name) moves hc₀
    obtain ⟨c, hc, h₂⟩ :=
      setsVar_play req (flagNameToEnvVar req.name) hc₁ (.reconcile now)
    refine ⟨c, by rw [hs]; exact hc, fun kubelet image => ?_⟩
    have hiff : SetsVar (flagNameToEnvVar req.name) c ↔
        SetsVar (flagNameToEnvVar req.name) c₀ ∨
        Delivered req (InjectsVar req k (flagNameToEnvVar req.name))
          moves s₀ := by
      rw [h₂, h₁]
      simp [(hnothing k _).1]
    have hnone : ∀ c : Container,
        (∀ e ∈ c.env, e.name ≠ flagNameToEnvVar req.name) ↔
          ¬ SetsVar (flagNameToEnvVar req.name) c := by
      intro c
      simp [SetsVar]
    rw [envProvider_defaults, envProvider_defaults, lookup_environ,
      lookup_environ, hnone, hnone, hiff, not_or, and_assoc]
  · rw [mounted_defaults, mounted_defaults, hs, hasKey_play, hasKey_history]
    simp [(hnothing k _).2]
  · have hflag : flagAt s req = some f.declared := by
      have hrec := (attempt_reconciles now hf).declared req
      rw [hs, show flagAt ((Move.reconcile now).play req
        (history req moves s₀)) req = _ from hrec, flagAt, hf]
      rfl
    obtain ⟨g, hg, hgf⟩ := flagAt_eq_some hflag
    refine ⟨g, hg, fun store => sidecar_defaults fun r hr => ?_⟩
    have hspec : g.declared.spec = f.declared.spec := by rw [hgf]
    have hname : (resolveFlag g).name = req.name := by
      have hkey := VTable.key_of_get? hg
      exact congrArg ObjectKey.name hkey
    rw [FlagStore.get_set, if_pos hname.symm] at hr
    obtain rfl := Option.some.inj hr
    exact (congrArg FeatureFlagSpec.disabled hspec).trans hdis

end

/-! The flag is delivered both ways, then disabled and reconciled. Its phase is
`disabled`, and the application goes on reading `true`. -/

def disabledSpec : FeatureFlagSpec :=
  { retryFlag.spec with disabled := true }

def killSwitchMoves : List Move := [.reconcile 7, .edit disabledSpec]

def plainKubelet : Kubelet := ⟨fun _ v => v, fun _ => ""⟩

theorem kill_switch_iff_sample :
    letI := labelSelectors
    let req : ObjectKey := ⟨"default", "dark-mode"⟩
    let s := history req (killSwitchMoves ++ [.reconcile 9]) retryCluster
    (∀ k, Client.Defaults ⟨configMapProvider (mounted s k)⟩ "dark-mode" ↔
      Client.Defaults ⟨configMapProvider (mounted retryCluster k)⟩
        "dark-mode" ∧
      ¬ Delivered req (WritesKey req k "dark-mode") killSwitchMoves
        retryCluster) ∧
    ∃ g, s.flags.get? req = some g ∧ ∀ store : FlagStore,
      Client.Defaults ⟨sidecarProvider ∅ (store.set (resolveFlag g))⟩
        "dark-mode" :=
  letI := labelSelectors
  have hsome : ((history ⟨"default", "dark-mode"⟩ killSwitchMoves
      retryCluster).flags.get? ⟨"default", "dark-mode"⟩).isSome := by decide
  have hdis : (Option.get _ hsome).spec.disabled = true := rfl
  (kill_switch_iff (Option.some_get hsome).symm hdis 9).2

theorem kill_switch_leaves_values :
    letI := labelSelectors
    let req : ObjectKey := ⟨"default", "dark-mode"⟩
    let s := history req (killSwitchMoves ++ [.reconcile 9]) retryCluster
    ((s.flags.get? req).map fun g => (g.spec.disabled, g.status.phase)) =
        some (true, .disabled) ∧
      ((containerAt s ⟨"default", "web"⟩ 0).map fun c =>
        Client.bool ⟨envProvider (plainKubelet.environ ∅ c.env)⟩
          "dark-mode" false) = some true ∧
      Client.bool ⟨configMapProvider (mounted s ⟨"default", "flags"⟩)⟩
        "dark-mode" false = true := by
  decide

end Vexil.Operator
