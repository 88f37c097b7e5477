import Vexil.Proofs.Retry

/-!
# Whose injections they are

The operator has no cleanup. A reconcile sees the current declaration of one
flag, adds what that asks for and takes nothing back; there is no finalizer, and
a flag that is gone is reconciled to nothing at all. So an entry outlives the
flag that asked for it, or the selector, the name or the ConfigMap that the
flag has moved on to.

What does hold is an owner for every injection. An entry that a reconcile
appends, and a key that it writes, was asked for by the enabled flag under
reconcile; it stays there in every later state; and it goes on belonging to that
flag for as long as nobody deletes the flag or edits its delivery.
-/

namespace Vexil.Operator

open Vexil.Lib Vexil.Kube

section
variable [Apimachinery]

/-! ## Runs of flag edits and reconciles -/

inductive FlagStep where
  | put (f : FeatureFlag)
  | delete (key : ObjectKey)
  | reconcile (req : ObjectKey) (now : Nat) (plan : List (Option String))

/-- `put` creates a flag or replaces its spec; any call of a reconcile may fail,
and with an empty plan none does. -/
def FlagStep.play : FlagStep → Cluster → Cluster
  | .put f, s => (OtherWrite.putFlag f).apply s
  | .delete key, s => (OtherWrite.deleteFlag key).apply s
  | .reconcile req now plan, s => attemptPlan req now plan s

def playAll (es : List FlagStep) (s : Cluster) : Cluster :=
  es.foldl (fun s e => e.play s) s

/-- The step neither deletes the flag nor gives it another delivery. -/
def FlagStep.Keeps (req : ObjectKey) (delivery : Option DeliverySpec) :
    FlagStep → Prop
  | .put f => f.metadata.objectKey = req → f.spec.delivery = delivery
  | .delete key => key ≠ req
  | .reconcile _ _ _ => True

/-! ## Belonging -/

/-- The flag declares `var` for the Deployment, disabled or not. -/
def NamesVar (f : FeatureFlag) (d : Deployment) (var : String) : Prop :=
  ∃ t ∈ envDelivery f, t.envName = var ∧ t.selects d = true

/-- The flag declares `key` of the ConfigMap. -/
def NamesKey (f : FeatureFlag) (k : ObjectKey) (key : String) : Prop :=
  ∃ delivery ∈ f.spec.delivery.bind DeliverySpec.configMap,
    k = ⟨f.metadata.ns, delivery.configMapName⟩ ∧ delivery.key = key

/-- Between `s` and `s'` the container got an entry it did not have. -/
def Appended (s s' : Cluster) (k : ObjectKey) (i : Nat) (var : String) : Prop :=
  (∃ c ∈ containerAt s k i, ¬ SetsVar var c) ∧
    ∃ c ∈ containerAt s' k i, SetsVar var c

/-- Between `s` and `s'` the key got another value. -/
def KeyWritten (s s' : Cluster) (k : ObjectKey) (key : String) : Prop :=
  valueAt s' k key ≠ valueAt s k key

theorem namesVar_congr {f g : FeatureFlag} {d d' : Deployment} {var : String}
    (hkey : g.metadata.objectKey = f.metadata.objectKey)
    (hdel : g.spec.delivery = f.spec.delivery)
    (hd : d'.metadata = d.metadata) (h : NamesVar f d var) :
    NamesVar g d' var := by
  obtain ⟨t, ht, hname, hs⟩ := h
  have hns : g.metadata.ns = f.metadata.ns := congrArg ObjectKey.ns hkey
  have hn : g.metadata.name = f.metadata.name := congrArg ObjectKey.name hkey
  have hsame : envDelivery g = envDelivery f := by
    simp only [envDelivery, envVarName, hdel, hns, hn]
  have hsel : t.selects d' = t.selects d :=
    envDelivery_selects ht (by rw [hd]) (by rw [hd])
  exact ⟨t, hsame ▸ ht, hname, hsel.trans hs⟩

omit [Apimachinery] in
theorem namesKey_congr {f g : FeatureFlag} {k : ObjectKey} {key : String}
    (hkey : g.metadata.objectKey = f.metadata.objectKey)
    (hdel : g.spec.delivery = f.spec.delivery) (h : NamesKey f k key) :
    NamesKey g k key := by
  obtain ⟨delivery, hmem, hk, hkey'⟩ := h
  have hns : g.metadata.ns = f.metadata.ns := congrArg ObjectKey.ns hkey
  exact ⟨delivery, hdel ▸ hmem, by rw [hns]; exact hk, hkey'⟩

/-! ## The reconcile that injects -/

theorem attemptPlan_reach (req : ObjectKey) (now : Nat)
    (plan : List (Option String)) (s : Cluster) {f : FeatureFlag}
    (hf : s.flags.get? req = some f) :
    Reconciles req f False s (attemptPlan req now plan s) := by
  have hrec := reconcile_reach hf (attemptPlan_completes req now plan s)
  exact ⟨⟨hrec.reach.deployments, hrec.reach.configMaps, False.elim,
    False.elim⟩, hrec.declared, hrec.others⟩

theorem attemptPlan_missing (req : ObjectKey) (now : Nat)
    (plan : List (Option String)) (s : Cluster)
    (hf : s.flags.get? req = none) : attemptPlan req now plan s = s :=
  reconcile_missing hf (attemptPlan_completes req now plan s)

/-- A container after an attempt is the one before it, or that with the flag's
variable injected. -/
theorem container_attempt (req : ObjectKey) (now : Nat)
    (plan : List (Option String)) {k : ObjectKey} {i : Nat} {s : Cluster}
    {c : Container}
    (hc : containerAt s k i = some c) :
    containerAt (attemptPlan req now plan s) k i = some c ∨
      ∃ f t d, s.flags.get? req = some f ∧ envTarget f = some t ∧
        deployAt s k = some d ∧ t.selects d = true ∧
        containerAt (attemptPlan req now plan s) k i =
          some (injectContainer t.envName f.spec.defaultValue c).1 := by
  cases hf : s.flags.get? req with
  | none =>
      rw [attemptPlan_missing req now plan s hf]
      exact .inl hc
  | some f =>
      obtain ⟨d, hd, hi⟩ := Option.bind_eq_some_iff.mp hc
      rcases (attemptPlan_reach req now plan s hf).reach.deployments k
        with h | h
      · refine .inl ?_
        rw [containerAt, h]
        exact hc
      · rw [hd, Option.map_some] at h
        cases ht : envTarget f with
        | none =>
            rw [desiredDeployment_of_none ht] at h
            refine .inl ?_
            rw [containerAt, h]
            exact hi
        | some t =>
            cases hs : t.selects d with
            | false =>
                rw [desiredDeployment_of_not_selects ht hs] at h
                refine .inl ?_
                rw [containerAt, h]
                exact hi
            | true =>
                rw [desiredDeployment_of_selects ht hs] at h
                refine .inr ⟨f, t, d, rfl, ht, hd, hs, ?_⟩
                rw [containerAt, h, Option.bind_some, containers_injected,
                  List.getElem?_map, hi]
                rfl

/-- An appended entry was asked for by the enabled flag under reconcile. -/
theorem appended_owner {req k : ObjectKey} {now i : Nat}
    {plan : List (Option String)} {s : Cluster} {var : String}
    (h : Appended s (attemptPlan req now plan s) k i var) :
    ∃ f d, s.flags.get? req = some f ∧ f.spec.disabled = false ∧
      deployAt s k = some d ∧ NamesVar f d var := by
  obtain ⟨⟨c, hc, hno⟩, c', hc', hyes⟩ := h
  rcases container_attempt req now plan hc
    with hsame | ⟨f, t, d, hf, ht, hd, hs, hinj⟩
  · rw [hc'] at hsame
    obtain rfl := Option.some.inj hsame
    exact absurd hyes hno
  · rw [hc'] at hinj
    obtain rfl := Option.some.inj hinj
    obtain ⟨hdis, hdel⟩ := envTarget_eq_some.mp ht
    have hname := (setsVar_injectContainer.mp hyes).resolve_left hno
    exact ⟨f, d, hf, hdis, hd, t, hdel, hname, hs⟩

omit [Apimachinery] in
/-- A delivery changes the value of its key only. -/
theorem deliveredConfigMap_lookup_ne {f : FeatureFlag}
    {delivery : ConfigMapDelivery} {old : Option ConfigMap} {key : String}
    (hne : key ≠ delivery.key) :
    (orEmpty (deliveredConfigMap f delivery old).data).lookup key =
      old.bind fun cm => (orEmpty cm.data).lookup key := by
  cases old with
  | none =>
      simp [deliveredConfigMap, newConfigMap, GoMap.lookup_single, hne]
  | some cm =>
      simp only [deliveredConfigMap, Option.bind_some]
      split
      · simp [hne]
      · rfl

theorem keyWritten_owner {req k : ObjectKey} {now : Nat}
    {plan : List (Option String)} {s : Cluster} {key : String}
    (h : KeyWritten s (attemptPlan req now plan s) k key) :
    (∃ f, s.flags.get? req = some f ∧ f.spec.disabled = false ∧
      NamesKey f k key) ∧ HasKey k key (attemptPlan req now plan s) := by
  unfold KeyWritten valueAt at h
  cases hf : s.flags.get? req with
  | none =>
      rw [attemptPlan_missing req now plan s hf] at h
      exact absurd rfl h
  | some f =>
      rcases (attemptPlan_reach req now plan s hf).reach.configMaps k
        with hsame | hdes
      · rw [hsame] at h
        exact absurd rfl h
      · rw [hdes] at h
        cases ht : configMapTarget f with
        | none =>
            rw [desiredConfigMap_of_none ht] at h
            exact absurd rfl h
        | some delivery =>
            rw [desiredConfigMap_of_some ht] at h
            by_cases hk : k = ⟨f.metadata.ns, delivery.configMapName⟩
            · rw [if_pos hk, Option.bind_some] at h
              have hkey : delivery.key = key := by
                by_contra hne
                exact h (deliveredConfigMap_lookup_ne (Ne.symm hne))
              obtain ⟨hdis, hdel⟩ := configMapTarget_eq_some ht
              refine ⟨⟨f, rfl, hdis, delivery, hdel, hk, hkey⟩, ?_⟩
              have hthere : configMapAt (attemptPlan req now plan s) k =
                  some (deliveredConfigMap f delivery (configMapAt s k)) := by
                rw [hdes, desiredConfigMap_of_some ht, if_pos hk]
              refine ⟨_, hthere, fun hnone => h ?_⟩
              -- a key that is missing now was missing before
              have hold := mt (deliveredConfigMap_hasKey f delivery
                (configMapAt s k) key).mpr (not_not.mpr hnone)
              rw [hnone]
              cases hc : configMapAt s k with
              | none => rfl
              | some cm =>
                  by_contra hne
                  exact hold (.inl ⟨cm, hc, Ne.symm hne⟩)
            · rw [if_neg hk] at h
              exact absurd rfl h

/-! ## What later steps leave alone -/

/-- A flag edit reaches no Deployment and no ConfigMap. -/
theorem put_frame (f : FeatureFlag) (s : Cluster) :
    ((FlagStep.put f).play s).deployments = s.deployments ∧
      ((FlagStep.put f).play s).configMaps = s.configMaps := by
  simp only [FlagStep.play, OtherWrite.apply, Cluster.writeFlag]
  split
  · exact ⟨rfl, rfl⟩
  · split <;> exact ⟨rfl, rfl⟩

/-- What is kept for good: the injected entry or the written key, and with them
the labels that the selection depends on. -/
theorem container_stays {k : ObjectKey} {i : Nat} {var : String} {s : Cluster}
    (h : ∃ c, containerAt s k i = some c ∧ SetsVar var c) (e : FlagStep) :
    ∃ c, containerAt (e.play s) k i = some c ∧ SetsVar var c := by
  obtain ⟨c, hc, hvar⟩ := h
  cases e with
  | put f =>
      refine ⟨c, ?_, hvar⟩
      rw [containerAt, deployAt, (put_frame f s).1]
      exact hc
  | delete key => exact ⟨c, hc, hvar⟩
  | reconcile req now plan =>
      show ∃ c, containerAt (attemptPlan req now plan s) k i = some c ∧ _
      rcases container_attempt req now plan hc
        with hsame | ⟨f, t, d, _, _, _, _, hinj⟩
      · exact ⟨c, hsame, hvar⟩
      · exact ⟨_, hinj, setsVar_injectContainer.mpr (.inl hvar)⟩

theorem key_stays {k : ObjectKey} {key : String} {s : Cluster}
    (h : HasKey k key s) (e : FlagStep) : HasKey k key (e.play s) := by
  cases e with
  | put f =>
      rw [HasKey, configMapAt, (put_frame f s).2]
      exact h
  | delete key => exact h
  | reconcile req now plan =>
      show HasKey k key (attemptPlan req now plan s)
      cases hf : s.flags.get? req with
      | none =>
          rw [attemptPlan_missing req now plan s hf]
          exact h
      | some f =>
          rcases (attemptPlan_reach req now plan s hf).reach.configMaps k
            with hsame | hdes
          · rw [HasKey, hsame]
            exact h
          · rw [HasKey, hdes]
            cases ht : configMapTarget f with
            | none =>
                rw [desiredConfigMap_of_none ht]
                exact h
            | some delivery =>
                rw [desiredConfigMap_of_some ht]
                split
                · refine ⟨_, rfl, ?_⟩
                  exact (deliveredConfigMap_hasKey f delivery _ key).mpr (.inl h)
                · exact h

theorem metadata_stays {k : ObjectKey} {m : ObjectMeta} {s : Cluster}
    (h : ∃ d, deployAt s k = some d ∧ d.metadata = m) (e : FlagStep) :
    ∃ d, deployAt (e.play s) k = some d ∧ d.metadata = m := by
  obtain ⟨d, hd, hm⟩ := h
  cases e with
  | put f =>
      refine ⟨d, ?_, hm⟩
      rw [deployAt, (put_frame f s).1]
      exact hd
  | delete key => exact ⟨d, hd, hm⟩
  | reconcile req now plan =>
      show ∃ d, deployAt (attemptPlan req now plan s) k = some d ∧ _
      cases hf : s.flags.get? req with
      | none =>
          rw [attemptPlan_missing req now plan s hf]
          exact ⟨d, hd, hm⟩
      | some f =>
          rcases (attemptPlan_reach req now plan s hf).reach.deployments k
            with hsame | hdes
          · exact ⟨d, hsame.trans hd, hm⟩
          · rw [hd, Option.map_some] at hdes
            exact ⟨_, hdes, (metadata_desiredDeployment f d).trans hm⟩

/-- A flag whose delivery nobody edits keeps it. -/
theorem delivery_stays {req : ObjectKey} {delivery : Option DeliverySpec}
    {s : Cluster} {e : FlagStep} (he : e.Keeps req delivery)
    (h : ∃ f, s.flags.get? req = some f ∧ f.spec.delivery = delivery) :
    ∃ f, (e.play s).flags.get? req = some f ∧ f.spec.delivery = delivery := by
  obtain ⟨f, hf, hdel⟩ := h
  cases e with
  | put g =>
      by_cases hkey : g.metadata.objectKey = req
      · have hg := he hkey
        have hold : s.flags.get? g.metadata.objectKey = some f := by
          rw [hkey, hf]
        simp only [FlagStep.play, OtherWrite.apply, hold, Cluster.writeFlag]
        split
        · exact ⟨f, hf, hdel⟩
        · have hself := VTable.get?_write_self s.flags (mergeFlag f g)
          rw [show Versioned.key (mergeFlag f g) = req from hkey] at hself
          exact ⟨_, hself, hg⟩
      · have hne : (OtherWrite.putFlag g).flagKey ≠ some req := by
          intro h
          exact hkey (Option.some.inj h)
        exact ⟨f, (OtherWrite.flags_apply_ne hne).trans hf, hdel⟩
  | delete key =>
      have hne : (OtherWrite.deleteFlag key).flagKey ≠ some req := by
        intro h
        exact he (Option.some.inj h)
      exact ⟨f, (OtherWrite.flags_apply_ne hne).trans hf, hdel⟩
  | reconcile req' now plan =>
      have hdeclared : flagAt (attemptPlan req' now plan s) req = flagAt s req := by
        cases hg : s.flags.get? req' with
        | none => rw [attemptPlan_missing req' now plan s hg]
        | some g => exact (attemptPlan_reach req' now plan s hg).declared req
      rw [show flagAt s req = some f.declared by rw [flagAt, hf]; rfl]
        at hdeclared
      obtain ⟨g, hg, hgf⟩ := flagAt_eq_some hdeclared
      have hspec : g.declared.spec = f.declared.spec := by rw [hgf]
      refine ⟨g, hg, ?_⟩
      rw [← hdel]
      exact congrArg FeatureFlagSpec.delivery hspec

/-- What each step preserves, a run preserves. -/
theorem playAll_invariant (I : Cluster → Prop) (ok : FlagStep → Prop)
    (step : ∀ s e, ok e → I s → I (e.play s)) {es : List FlagStep} {s : Cluster}
    (hok : ∀ e ∈ es, ok e) (hs : I s) : I (playAll es s) := by
  induction es generalizing s with
  | nil => exact hs
  | cons e es ih =>
      obtain ⟨he, hes⟩ := List.forall_mem_cons.mp hok
      exact ih hes (step s e he hs)

theorem container_stays_run {k : ObjectKey} {i : Nat} {var : String}
    {s : Cluster} (h : ∃ c, containerAt s k i = some c ∧ SetsVar var c)
    (es : List FlagStep) :
    ∃ c, containerAt (playAll es s) k i = some c ∧ SetsVar var c :=
  playAll_invariant
    (fun s => ∃ c, containerAt s k i = some c ∧ SetsVar var c)
    (fun _ => True) (fun _ e _ h => container_stays h e) (fun _ _ => trivial) h

theorem key_stays_run {k : ObjectKey} {key : String} {s : Cluster}
    (h : HasKey k key s) (es : List FlagStep) : HasKey k key (playAll es s) :=
  playAll_invariant (HasKey k key) (fun _ => True)
    (fun _ e _ h => key_stays h e) (fun _ _ => trivial) h

theorem metadata_stays_run {k : ObjectKey} {m : ObjectMeta} {s : Cluster}
    (h : ∃ d, deployAt s k = some d ∧ d.metadata = m) (es : List FlagStep) :
    ∃ d, deployAt (playAll es s) k = some d ∧ d.metadata = m :=
  playAll_invariant (fun s => ∃ d, deployAt s k = some d ∧ d.metadata = m)
    (fun _ => True) (fun _ e _ h => metadata_stays h e) (fun _ _ => trivial) h

theorem delivery_stays_run {req : ObjectKey} {delivery : Option DeliverySpec}
    {s : Cluster} {es : List FlagStep} (hes : ∀ e ∈ es, e.Keeps req delivery)
    (h : ∃ f, s.flags.get? req = some f ∧ f.spec.delivery = delivery) :
    ∃ f, (playAll es s).flags.get? req = some f ∧ f.spec.delivery = delivery :=
  playAll_invariant
    (fun s => ∃ f, s.flags.get? req = some f ∧ f.spec.delivery = delivery)
    (fun e => e.Keeps req delivery) (fun _ _ he h => delivery_stays he h) hes h

/-! ## The owner -/

/-- Let `m` be any state of a run in which `req` is reconciled, and `s` any
state after that. An entry that the reconcile appended, and a key that it wrote,
was asked for by the flag stored under `req` in `m`, which was enabled; it is
there in `s`; and in `s` it belongs to the flag stored under `req`, unless a
step in between deleted that flag or gave it another delivery. -/
theorem injections_owned (s₀ : Cluster) (before after : List FlagStep)
    (req : ObjectKey) (now : Nat) (plan : List (Option String)) :
    let m := playAll before s₀
    let m' := (FlagStep.reconcile req now plan).play m
    let s := playAll after m'
    (∀ k i var, Appended m m' k i var →
      ∃ f d, m.flags.get? req = some f ∧ f.spec.disabled = false ∧
        deployAt m k = some d ∧ NamesVar f d var ∧
        (∃ c, containerAt s k i = some c ∧ SetsVar var c) ∧
        ((∀ e ∈ after, e.Keeps req f.spec.delivery) →
          ∃ g d', s.flags.get? req = some g ∧ deployAt s k = some d' ∧
            NamesVar g d' var)) ∧
    ∀ k key, KeyWritten m m' k key →
      ∃ f, m.flags.get? req = some f ∧ f.spec.disabled = false ∧
        NamesKey f k key ∧ HasKey k key s ∧
        ((∀ e ∈ after, e.Keeps req f.spec.delivery) →
          ∃ g, s.flags.get? req = some g ∧ NamesKey g k key) := by
  intro m m' s
  have hkept : ∀ f, m.flags.get? req = some f →
      (∀ e ∈ after, e.Keeps req f.spec.delivery) →
      ∃ g, s.flags.get? req = some g ∧
        g.metadata.objectKey = f.metadata.objectKey ∧
        g.spec.delivery = f.spec.delivery := by
    intro f hf hkeeps
    have hm' : ∃ g, m'.flags.get? req = some g ∧
        g.spec.delivery = f.spec.delivery := by
      have hkeep : (FlagStep.reconcile req now plan).Keeps req
        f.spec.delivery := trivial
      exact delivery_stays hkeep ⟨f, hf, rfl⟩
    obtain ⟨g, hg, hdel⟩ := delivery_stays_run hkeeps hm'
    exact ⟨g, hg, (VTable.key_of_get? hg).trans (VTable.key_of_get? hf).symm,
      hdel⟩
  refine ⟨fun k i var happ => ?_, fun k key hw => ?_⟩
  · obtain ⟨f, d, hf, hdis, hd, hnames⟩ := appended_owner happ
    refine ⟨f, d, hf, hdis, hd, hnames, container_stays_run happ.2 after,
      fun hkeeps => ?_⟩
    obtain ⟨g, hg, hkey, hdel⟩ := hkept f hf hkeeps
    have hm' := metadata_stays ⟨d, hd, rfl⟩ (.reconcile req now plan)
    obtain ⟨d', hd', hmeta⟩ := metadata_stays_run hm' after
    exact ⟨g, d', hg, hd', namesVar_congr hkey hdel hmeta hnames⟩
  · obtain ⟨⟨f, hf, hdis, hnames⟩, hthere⟩ := keyWritten_owner hw
    refine ⟨f, hf, hdis, hnames, key_stays_run hthere after, fun hkeeps => ?_⟩
    obtain ⟨g, hg, hkey, hdel⟩ := hkept f hf hkeeps
    exact ⟨g, hg, namesKey_congr hkey hdel hnames⟩

end

instance [Apimachinery] (f : FeatureFlag) (d : Deployment) (var : String) :
    Decidable (NamesVar f d var) :=
  inferInstanceAs (Decidable
    (∃ t ∈ envDelivery f, t.envName = var ∧ t.selects d = true))

instance (f : FeatureFlag) (k : ObjectKey) (key : String) :
    Decidable (NamesKey f k key) :=
  inferInstanceAs (Decidable
    (∃ delivery ∈ f.spec.delivery.bind DeliverySpec.configMap,
      k = ⟨f.metadata.ns, delivery.configMapName⟩ ∧ delivery.key = key))

/-! The flag is delivered to one application and to a ConfigMap, and then moved
to another application and another ConfigMap. -/

def injectionReq : ObjectKey := ⟨"default", "dark-mode"⟩

def movedFlag : FeatureFlag := sampleFlag {
  envVar := some { selector := some (sampleSelector "api") }
  configMap := some ⟨"settings", "dark-mode", none⟩ }

def injectionCluster : Cluster where
  deployments := VTable.empty.write (sampleDeployment "web" "web" [])

def injectionStart : Cluster :=
  letI := labelSelectors
  playAll [.put retryFlag] injectionCluster

def injectionAfter : List FlagStep :=
  [.put movedFlag, .reconcile injectionReq 9 []]

theorem injections_owned_sample :
    letI := labelSelectors
    let m' := (FlagStep.reconcile injectionReq 7 []).play injectionStart
    let s := playAll injectionAfter m'
    ∃ f d, injectionStart.flags.get? injectionReq = some f ∧
      deployAt injectionStart ⟨"default", "web"⟩ = some d ∧
      NamesVar f d "FLAG_DARK_MODE" ∧
      ∃ c, containerAt s ⟨"default", "web"⟩ 0 = some c ∧
        SetsVar "FLAG_DARK_MODE" c := by
  let := labelSelectors
  have happ : Appended injectionStart
      ((FlagStep.reconcile injectionReq 7 []).play injectionStart)
      ⟨"default", "web"⟩ 0 "FLAG_DARK_MODE" := by
    constructor
    · decide
    · decide
  obtain ⟨f, d, hf, _, hd, hnames, hthere, _⟩ :=
    (injections_owned injectionCluster [.put retryFlag] injectionAfter
      injectionReq 7 []).1 _ _ _ happ
  exact ⟨f, d, hf, hd, hnames, hthere⟩

/-- After the second reconcile, which succeeds, the variable is still in the
container it was appended to and the key in the ConfigMap it was written to,
and no flag declares either. -/
theorem injection_goes_stale :
    letI := labelSelectors
    let m' := (FlagStep.reconcile injectionReq 7 []).play injectionStart
    let s := playAll injectionAfter m'
    (s.flags.get? injectionReq).map (·.status.phase) = some .active ∧
    (Appended injectionStart m' ⟨"default", "web"⟩ 0 "FLAG_DARK_MODE" ∧
      (∃ c ∈ containerAt s ⟨"default", "web"⟩ 0,
        SetsVar "FLAG_DARK_MODE" c) ∧
      ∀ f ∈ s.flags.rows.items, ∀ d ∈ deployAt s ⟨"default", "web"⟩,
        ¬ NamesVar f d "FLAG_DARK_MODE") ∧
    KeyWritten injectionStart m' ⟨"default", "flags"⟩ "dark-mode" ∧
      valueAt s ⟨"default", "flags"⟩ "dark-mode" = some "true" ∧
      ∀ f ∈ s.flags.rows.items,
        ¬ NamesKey f ⟨"default", "flags"⟩ "dark-mode" := by
  let := labelSelectors
  refine ⟨by decide, ⟨⟨by decide, by decide⟩, by decide, by decide⟩, ?_,
    by decide, by decide⟩
  unfold KeyWritten
  decide

end Vexil.Operator
