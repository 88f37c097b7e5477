import Vexil.Lib.LastWrite
import Vexil.Operator.Outcome
import Vexil.Proofs.Injection

/-!
# The last writer of a slot

Nothing keeps two flags from declaring one variable of one Deployment, or one
key of one ConfigMap. The operator has no notion of who owns a slot: each
reconcile overwrites what it finds. So what an application gets is decided by
the order of the reconciles, and not by the declarations.

A slot is a variable of one container or a key of one ConfigMap. Over any run of
edits, deletions and reconciles of any flags, with any calls failing, it is a
register: it holds what it held at the start or the value of one reconcile that
asked for it, and no reconcile that asked for it and landed comes later. A
reconcile landed when it recorded `active`, or lost no call.
-/

namespace Vexil.Operator

open Vexil.Lib Vexil.Kube

/-! ## Slots -/

inductive Slot where
  | envVar (k : ObjectKey) (i : Nat) (var : String)
  | dataKey (k : ObjectKey) (key : String)

/-- What is read there: the first entry of the name, and a missing key as
empty. -/
def Slot.value : Slot → Cluster → Option String
  | .envVar k i var, s =>
      (containerAt s k i).bind fun c => firstValue var c.env
  | .dataKey k key, s => some ((valueAt s k key).getD "")

theorem Slot.value_envVar {k : ObjectKey} {i : Nat} {var : String}
    {s : Cluster} : (Slot.envVar k i var).value s =
      ((deployAt s k).bind fun d => d.template.containers[i]?).bind
        fun c => firstValue var c.env := rfl

theorem Slot.value_dataKey {k : ObjectKey} {key : String} {s : Cluster} :
    (Slot.dataKey k key).value s = some (((configMapAt s k).bind fun cm =>
      (orEmpty cm.data).lookup key).getD "") := rfl

/-- A slot depends on the workloads alone. -/
theorem Slot.value_congr {slot : Slot} {s s' : Cluster}
    (hd : s'.deployments = s.deployments) (hc : s'.configMaps = s.configMaps) :
    slot.value s' = slot.value s := by
  cases slot with
  | envVar k i var =>
      rw [Slot.value_envVar, deployAt, hd]
      rfl
  | dataKey k key =>
      rw [Slot.value_dataKey, configMapAt, hc]
      rfl

section
variable [Apimachinery]

/-- The flag asks for the slot in `s`: it is enabled, and its delivery comes to
a Deployment it selects, or to the key. -/
def Slot.AskedBy (f : FeatureFlag) (s : Cluster) : Slot → Prop
  | .envVar k i var => ∃ t d, envTarget f = some t ∧ t.envName = var ∧
      deployAt s k = some d ∧ t.selects d = true ∧
      i < d.template.containers.length
  | .dataKey k key => ∃ delivery, configMapTarget f = some delivery ∧
      k = ⟨f.metadata.ns, delivery.configMapName⟩ ∧ delivery.key = key

/-- A reconcile of the flag in `s` has come to the slot: in `s'` it holds the
value that was asked for, if any was. -/
structure Slot.Served (slot : Slot) (f : FeatureFlag) (s s' : Cluster) :
    Prop where
  asked : slot.AskedBy f s → slot.value s' = some f.spec.defaultValue
  other : ¬ slot.AskedBy f s → slot.value s' = slot.value s

/-! ## One object -/

theorem Slot.served_envVar {f : FeatureFlag} {k : ObjectKey} {i : Nat}
    {var : String} {s s' : Cluster}
    (h : deployAt s' k = (deployAt s k).map (desiredDeployment f)) :
    (Slot.envVar k i var).Served f s s' := by
  have hsame : ∀ d, deployAt s k = some d → desiredDeployment f d = d →
      (Slot.envVar k i var).value s' = (Slot.envVar k i var).value s := by
    intro d hd hkept
    rw [Slot.value_envVar, Slot.value_envVar, h, hd, Option.map_some, hkept]
  constructor
  · intro hask
    obtain ⟨t, d, ht, hname, hd, hs, hlen⟩ := hask
    subst hname
    rw [Slot.value_envVar, h, hd, Option.map_some,
      desiredDeployment_of_selects ht hs]
    simp [containers_injected, hlen, firstValue_injectContainer]
  · intro hno
    cases hd : deployAt s k with
    | none => rw [Slot.value_envVar, Slot.value_envVar, h, hd, Option.map_none]
    | some d =>
        cases ht : envTarget f with
        | none => exact hsame d hd (desiredDeployment_of_none ht d)
        | some t =>
            cases hs : t.selects d with
            | false =>
                exact hsame d hd (desiredDeployment_of_not_selects ht hs)
            | true =>
                rw [Slot.value_envVar, Slot.value_envVar, h, hd,
                  Option.map_some, Option.bind_some, Option.bind_some,
                  desiredDeployment_of_selects ht hs, containers_injected,
                  List.getElem?_map]
                cases hi : d.template.containers[i]? with
                | none => rfl
                | some c =>
                    have hlen := (List.getElem?_eq_some_iff.mp hi).1
                    have hvar : var ≠ t.envName := fun hvar =>
                      hno ⟨t, d, ht, hvar.symm, hd, hs, hlen⟩
                    exact firstValue_injectContainer_ne hvar c

theorem Slot.served_dataKey {f : FeatureFlag} {k : ObjectKey} {key : String}
    {s s' : Cluster}
    (h : configMapAt s' k = desiredConfigMap f k (configMapAt s k)) :
    (Slot.dataKey k key).Served f s s' := by
  constructor
  · intro hask
    obtain ⟨delivery, ht, hk, hkey⟩ := hask
    subst hkey
    rw [Slot.value_dataKey, h, desiredConfigMap_of_some ht, if_pos hk]
    exact congrArg some (deliveredConfigMap_index f delivery (configMapAt s k))
  · intro hno
    rw [Slot.value_dataKey, Slot.value_dataKey, h]
    cases ht : configMapTarget f with
    | none => rw [desiredConfigMap_of_none ht]
    | some delivery =>
        rw [desiredConfigMap_of_some ht]
        by_cases hk : k = ⟨f.metadata.ns, delivery.configMapName⟩
        · have hkey : key ≠ delivery.key := fun hkey =>
            hno ⟨delivery, ht, hk, hkey.symm⟩
          rw [if_pos hk, Option.bind_some, deliveredConfigMap_lookup_ne hkey]
        · rw [if_neg hk]

/-! ## One step -/

/-- The calls a planned reconcile makes and their replies. -/
def planEvents (req : ObjectKey) (now : Nat) (plan : List (Option String))
    (s : Cluster) : List KubeEvent :=
  ((reconcile now req).exec KubeCall.servePlan (plan, s)).1

/-- The reconcile recorded the phase `active`, or no call of it was lost. -/
def Landed (s : Cluster) : FlagStep → Prop
  | .reconcile req now plan =>
      recordedPhase (planEvents req now plan s) = some .active ∨
        ∀ e ∈ planEvents req now plan s, ¬ Lost e
  | _ => False

/-- The step reconciles a flag that asks for the slot with this value. -/
def Slot.Asked (slot : Slot) (s : Cluster) : FlagStep → Option String → Prop
  | .reconcile req _ _, value => ∃ f, s.flags.get? req = some f ∧
      slot.AskedBy f s ∧ value = some f.spec.defaultValue
  | _, _ => False

theorem attemptPlan_landed (req : ObjectKey) (now : Nat)
    (plan : List (Option String)) (s : Cluster) {f : FeatureFlag}
    (hf : s.flags.get? req = some f) :
    Reach f (Landed s (.reconcile req now plan)) s
      (attemptPlan req now plan s) := by
  have hrun := attemptPlan_completes req now plan s
  have hactive := (reconcile_reach hf hrun).reach
  have hclean : (∀ e ∈ planEvents req now plan s, ¬ Lost e) →
      Reach f True s (attemptPlan req now plan s) := fun hlost =>
    (reconcile_clean hf (completes_clean hrun hlost)).reach
  refine ⟨hactive.deployments, hactive.configMaps, ?_, ?_⟩
  · intro hl
    rcases hl with h | h
    · exact hactive.allDeployments h
    · exact (hclean h).allDeployments trivial
  · intro hl
    rcases hl with h | h
    · exact hactive.allConfigMaps h
    · exact (hclean h).allConfigMaps trivial

/-- A reconcile comes to a slot or leaves it alone; if it landed, it came. -/
theorem Slot.served_reconcile (slot : Slot) {req : ObjectKey} (now : Nat)
    (plan : List (Option String)) {s : Cluster} {f : FeatureFlag}
    (hf : s.flags.get? req = some f) :
    let s' := attemptPlan req now plan s
    slot.Served f s s' ∨
      slot.value s' = slot.value s ∧ ¬ Landed s (.reconcile req now plan) := by
  intro s'
  have hreach : Reach f (Landed s (.reconcile req now plan)) s s' :=
    attemptPlan_landed req now plan s hf
  by_cases hl : Landed s (.reconcile req now plan)
  · refine .inl ?_
    cases slot with
    | envVar k i var => exact Slot.served_envVar (hreach.allDeployments hl k)
    | dataKey k key => exact Slot.served_dataKey (hreach.allConfigMaps hl k)
  · cases slot with
    | envVar k i var =>
        rcases hreach.deployments k with h | h
        · refine .inr ⟨?_, hl⟩
          rw [Slot.value_envVar, h]
          rfl
        · exact .inl (Slot.served_envVar h)
    | dataKey k key =>
        rcases hreach.configMaps k with h | h
        · refine .inr ⟨?_, hl⟩
          rw [Slot.value_dataKey, h]
          rfl
        · exact .inl (Slot.served_dataKey h)

/-- A slot as a place that the steps of a run share. -/
def Slot.place (slot : Slot) : Place Cluster FlagStep (Option String) where
  step := FlagStep.play
  read := slot.value
  asks := slot.Asked
  landed := Landed

theorem Slot.place_obeys (slot : Slot) : slot.place.Obeys := by
  have hmissing : ∀ req now plan (s : Cluster), s.flags.get? req = none →
      slot.value ((FlagStep.reconcile req now plan).play s) = slot.value s := by
    intro req now plan s hf
    exact congrArg slot.value (attemptPlan_missing req now plan s hf)
  constructor
  · intro s e hquiet
    cases e with
    | put f =>
        exact Slot.value_congr (put_frame f s).1 (put_frame f s).2
    | delete key => exact Slot.value_congr rfl rfl
    | reconcile req now plan =>
        cases hf : s.flags.get? req with
        | none => exact hmissing req now plan s hf
        | some f =>
            rcases slot.served_reconcile now plan hf with h | h
            · exact h.other fun hask => hquiet _ ⟨f, hf, hask, rfl⟩
            · exact h.1
  · intro s e a hask
    cases e with
    | put f => exact hask.elim
    | delete key => exact hask.elim
    | reconcile req now plan =>
        obtain ⟨f, hf, hasked, rfl⟩ := hask
        rcases slot.served_reconcile now plan hf with h | h
        · exact .inl (h.asked hasked)
        · exact .inr h

/-! ## A whole run -/

/-- Some reconcile of the run asked for the slot and landed. -/
def Slot.Rewritten (slot : Slot) (es : List FlagStep) (s : Cluster) : Prop :=
  ∃ before req now plan after f,
    es = before ++ .reconcile req now plan :: after ∧
    (playAll before s).flags.get? req = some f ∧
    slot.AskedBy f (playAll before s) ∧
    Landed (playAll before s) (.reconcile req now plan)

theorem Slot.Rewritten.overwritten {slot : Slot} {es : List FlagStep}
    {s : Cluster} (h : slot.Rewritten es s) : slot.place.Overwritten es s := by
  obtain ⟨before, req, now, plan, after, f, heq, hf, hasked, hl⟩ := h
  exact ⟨before, _, after, _, heq, ⟨f, hf, hasked, rfl⟩, hl⟩

/-- After any run, a slot holds what it held at the start and no reconcile that
asked for it landed, or it holds the value that some flag had at one of its
reconciles, and no reconcile that asked for the slot landed after that one. -/
theorem last_writer (slot : Slot) (es : List FlagStep) (s₀ : Cluster) :
    slot.value (playAll es s₀) = slot.value s₀ ∧ ¬ slot.Rewritten es s₀ ∨
    ∃ before req now plan after f,
      es = before ++ .reconcile req now plan :: after ∧
      (playAll before s₀).flags.get? req = some f ∧
      slot.AskedBy f (playAll before s₀) ∧
      slot.value (playAll es s₀) = some f.spec.defaultValue ∧
      ¬ slot.Rewritten after
        ((FlagStep.reconcile req now plan).play (playAll before s₀)) := by
  rcases slot.place.last_write slot.place_obeys es s₀ with
    ⟨hvalue, hno⟩ | ⟨before, e, after, a, heq, hask, hvalue, hno⟩
  · exact .inl ⟨hvalue, fun h => hno h.overwritten⟩
  · cases e with
    | put f => exact hask.elim
    | delete key => exact hask.elim
    | reconcile req now plan =>
        obtain ⟨f, hf, hasked, rfl⟩ := hask
        exact .inr ⟨before, req, now, plan, after, f, heq, hf, hasked, hvalue,
          fun h => hno h.overwritten⟩

end

/-! Two flags that share a variable. The declarations are the same in both runs,
and the last reconcile decides; a third that loses its update changes nothing,
although it is the last one to ask. -/

def rivalFlag : FeatureFlag where
  metadata := { name := "theme", ns := "default", generation := 1 }
  spec := { retryFlag.spec with
    defaultValue := "blue"
    delivery := some { envVar := some {
      name := "FLAG_DARK_MODE"
      selector := some (sampleSelector "web") } } }

def rivals (reqs : List String) : List FlagStep :=
  .put rivalFlag :: reqs.map fun name => .reconcile ⟨"default", name⟩ 7 []

def lostUpdate : FlagStep :=
  .reconcile ⟨"default", "dark-mode"⟩ 8 [none, none, some "timeout"]

example :
    letI := labelSelectors
    let var := Slot.envVar ⟨"default", "api"⟩ 0 "FLAG_DARK_MODE"
    var.value (playAll (rivals ["theme", "dark-mode"]) retryCluster) =
        some "true" ∧
      var.value (playAll (rivals ["dark-mode", "theme"]) retryCluster) =
        some "blue" ∧
      var.value (playAll (rivals ["dark-mode", "theme"] ++ [lostUpdate])
        retryCluster) = some "blue" := by decide

end Vexil.Operator
