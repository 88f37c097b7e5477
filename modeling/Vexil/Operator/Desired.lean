import Vexil.Operator.Reconcile

/-!
# What a flag asks for

A reconcile described by what it is after and not by its calls:
`desiredDeployment` and `desiredConfigMap` are the objects a flag asks for, from
the ones that are there. Both depend on the declaration of the flag alone, and
asking twice is asking once.

Objects are compared by `content`, which forgets the version the server stamps,
since two runs that end alike still number their writes differently.
-/

namespace Vexil.Kube

def Deployment.content (d : Deployment) : Deployment :=
  { d with metadata.resourceVersion := 0 }

def ConfigMap.content (cm : ConfigMap) : ConfigMap :=
  { cm with metadata.resourceVersion := 0 }

/-- What the user declared, without what the server and the operator add. -/
def FeatureFlag.declared (f : FeatureFlag) : FeatureFlag :=
  { f with metadata.resourceVersion := 0, status := {} }

def deployAt (s : Cluster) (k : ObjectKey) : Option Deployment :=
  (s.deployments.get? k).map Deployment.content

def configMapAt (s : Cluster) (k : ObjectKey) : Option ConfigMap :=
  (s.configMaps.get? k).map ConfigMap.content

def flagAt (s : Cluster) (k : ObjectKey) : Option FeatureFlag :=
  (s.flags.get? k).map FeatureFlag.declared

theorem flagAt_eq_some {s : Cluster} {k : ObjectKey} {f : FeatureFlag}
    (h : flagAt s k = some f) :
    ∃ g, s.flags.get? k = some g ∧ g.declared = f := by
  simpa [flagAt] using h

end Vexil.Kube

namespace Vexil.Operator

open Vexil.Lib Vexil.Kube

section
variable [Apimachinery]

/-! ## The objects -/

/-- The variable a flag injects and the Deployments it injects it into. -/
structure EnvTarget where
  envName : String
  selects : Deployment → Bool

/-- What the envVar delivery of a flag declares, if its selector is valid. -/
def envDelivery (f : FeatureFlag) : Option EnvTarget :=
  match f.spec.delivery.bind DeliverySpec.envVar with
  | none => none
  | some delivery =>
      match Apimachinery.labelSelectorAsSelector delivery.selector with
      | .error _ => none
      | .ok selector => some {
          envName := envVarName f delivery
          selects := fun d => d.metadata.ns = f.metadata.ns ∧
            selector d.metadata.labels }

/-- A disabled flag is not delivered. -/
def envTarget (f : FeatureFlag) : Option EnvTarget :=
  if f.spec.disabled then none else envDelivery f

/-- The envVar delivery has a selector that cannot be converted, so nothing
after it is reached. -/
def envFails (f : FeatureFlag) : Bool :=
  match f.spec.delivery.bind DeliverySpec.envVar with
  | none => false
  | some delivery =>
      match Apimachinery.labelSelectorAsSelector delivery.selector with
      | .error _ => true
      | .ok _ => false

/-- The ConfigMap delivery of an enabled flag, when a reconcile gets to it. -/
def configMapTarget (f : FeatureFlag) : Option ConfigMapDelivery :=
  if f.spec.disabled || envFails f then none
  else f.spec.delivery.bind DeliverySpec.configMap

def desiredDeployment (f : FeatureFlag) (d : Deployment) : Deployment :=
  match envTarget f with
  | none => d
  | some t =>
      if t.selects d then
        injected f.metadata.name t.envName f.spec.defaultValue d
      else d

/-- The ConfigMap of a delivery, from the one that is there. -/
def deliveredConfigMap (f : FeatureFlag) (delivery : ConfigMapDelivery)
    (old : Option ConfigMap) : ConfigMap :=
  match old with
  | none => newConfigMap f delivery f.spec.defaultValue
  | some cm =>
      let data := orEmpty cm.data
      if data.index delivery.key ≠ f.spec.defaultValue then
        { cm with data := some (data.insert delivery.key f.spec.defaultValue) }
      else cm

def desiredConfigMap (f : FeatureFlag) (k : ObjectKey)
    (old : Option ConfigMap) : Option ConfigMap :=
  match configMapTarget f with
  | none => old
  | some delivery =>
      if k = ⟨f.metadata.ns, delivery.configMapName⟩ then
        some (deliveredConfigMap f delivery old)
      else old

theorem envTarget_eq_some {f : FeatureFlag} {t : EnvTarget} :
    envTarget f = some t ↔ f.spec.disabled = false ∧ envDelivery f = some t := by
  unfold envTarget
  split
  · next hdis => simp [hdis]
  · next hdis => simp [hdis]

theorem configMapTarget_eq_some {f : FeatureFlag}
    {delivery : ConfigMapDelivery} (h : configMapTarget f = some delivery) :
    f.spec.disabled = false ∧
      f.spec.delivery.bind DeliverySpec.configMap = some delivery := by
  unfold configMapTarget at h
  split at h
  · cases h
  · next hno =>
      rw [Bool.or_eq_true, not_or] at hno
      exact ⟨Bool.eq_false_of_not_eq_true hno.1, h⟩

/-- Whether a Deployment is selected depends on its metadata alone. -/
theorem envDelivery_selects {f : FeatureFlag} {t : EnvTarget}
    (ht : envDelivery f = some t) {d d' : Deployment}
    (hns : d'.metadata.ns = d.metadata.ns)
    (hlabels : d'.metadata.labels = d.metadata.labels) :
    t.selects d' = t.selects d := by
  unfold envDelivery at ht
  split at ht
  · cases ht
  · split at ht
    · cases ht
    · obtain rfl := Option.some.inj ht
      simp only [hns, hlabels]

theorem selects_congr {f : FeatureFlag} {t : EnvTarget}
    (ht : envTarget f = some t) {d d' : Deployment}
    (hns : d'.metadata.ns = d.metadata.ns)
    (hlabels : d'.metadata.labels = d.metadata.labels) :
    t.selects d' = t.selects d :=
  envDelivery_selects (envTarget_eq_some.mp ht).2 hns hlabels

theorem selects_content {f : FeatureFlag} {t : EnvTarget}
    (ht : envTarget f = some t) (d : Deployment) :
    t.selects d.content = t.selects d := selects_congr ht rfl rfl

theorem selects_injected {f : FeatureFlag} {t : EnvTarget}
    (ht : envTarget f = some t) (flagName envName value : String)
    (d : Deployment) :
    t.selects (injected flagName envName value d) = t.selects d := by
  have hmeta := metadata_injected flagName envName value d
  exact selects_congr ht (by rw [hmeta]) (by rw [hmeta])

theorem metadata_desiredDeployment (f : FeatureFlag) (d : Deployment) :
    (desiredDeployment f d).metadata = d.metadata := by
  unfold desiredDeployment
  split
  · rfl
  · split
    · exact metadata_injected _ _ _ d
    · rfl

theorem selects_desired {f g : FeatureFlag} {t : EnvTarget} {d : Deployment}
    (ht : envTarget f = some t) :
    t.selects (desiredDeployment g d) = t.selects d := by
  have hmeta := metadata_desiredDeployment g d
  exact selects_congr ht (by rw [hmeta]) (by rw [hmeta])

theorem desiredDeployment_of_none {f : FeatureFlag} (ht : envTarget f = none)
    (d : Deployment) : desiredDeployment f d = d := by
  simp only [desiredDeployment, ht]

theorem desiredDeployment_of_selects {f : FeatureFlag} {t : EnvTarget}
    {d : Deployment} (ht : envTarget f = some t) (hs : t.selects d = true) :
    desiredDeployment f d =
      injected f.metadata.name t.envName f.spec.defaultValue d := by
  simp only [desiredDeployment, ht, hs, if_true]

theorem desiredDeployment_of_not_selects {f : FeatureFlag} {t : EnvTarget}
    {d : Deployment} (ht : envTarget f = some t) (hs : t.selects d = false) :
    desiredDeployment f d = d := by
  simp [desiredDeployment, ht, hs]

theorem desiredConfigMap_of_none {f : FeatureFlag}
    (ht : configMapTarget f = none) (k : ObjectKey) (old : Option ConfigMap) :
    desiredConfigMap f k old = old := by
  simp only [desiredConfigMap, ht]

theorem desiredConfigMap_of_some {f : FeatureFlag}
    {delivery : ConfigMapDelivery} (ht : configMapTarget f = some delivery)
    (k : ObjectKey) (old : Option ConfigMap) :
    desiredConfigMap f k old =
      if k = ⟨f.metadata.ns, delivery.configMapName⟩ then
        some (deliveredConfigMap f delivery old)
      else old := by
  simp only [desiredConfigMap, ht]

/-! ## Versions do not matter -/

omit [Apimachinery] in
theorem content_injected (flagName envName value : String) (d : Deployment) :
    (injected flagName envName value d).content =
      injected flagName envName value d.content := by
  unfold injected injectDeployment Deployment.content
  dsimp only
  split <;> rfl

theorem content_desiredDeployment (f : FeatureFlag) (d : Deployment) :
    (desiredDeployment f d).content = desiredDeployment f d.content := by
  cases ht : envTarget f with
  | none =>
      rw [desiredDeployment_of_none ht, desiredDeployment_of_none ht]
  | some t =>
      have hsel := selects_content ht d
      cases hs : t.selects d with
      | false =>
          rw [desiredDeployment_of_not_selects ht hs,
            desiredDeployment_of_not_selects ht (hsel.trans hs)]
      | true =>
          rw [desiredDeployment_of_selects ht hs,
            desiredDeployment_of_selects ht (hsel.trans hs), content_injected]

omit [Apimachinery] in
theorem content_deliveredConfigMap (f : FeatureFlag)
    (delivery : ConfigMapDelivery) (old : Option ConfigMap) :
    (deliveredConfigMap f delivery old).content =
      deliveredConfigMap f delivery (old.map ConfigMap.content) := by
  cases old with
  | none => rfl
  | some cm =>
      simp only [deliveredConfigMap, Option.map_some, ConfigMap.content]
      split <;> rfl

/-! ## What a flag asks for depends on its declaration alone -/

theorem envTarget_declared (f : FeatureFlag) :
    envTarget f.declared = envTarget f := rfl

theorem desiredDeployment_declared (f : FeatureFlag) :
    desiredDeployment f.declared = desiredDeployment f := rfl

theorem desiredConfigMap_declared (f : FeatureFlag) :
    desiredConfigMap f.declared = desiredConfigMap f := rfl

/-! ## Desired twice is desired once -/

theorem desiredDeployment_idem (f : FeatureFlag) (d : Deployment) :
    desiredDeployment f (desiredDeployment f d) = desiredDeployment f d := by
  cases ht : envTarget f with
  | none => rw [desiredDeployment_of_none ht, desiredDeployment_of_none ht]
  | some t =>
      cases hs : t.selects d with
      | false =>
          rw [desiredDeployment_of_not_selects ht hs,
            desiredDeployment_of_not_selects ht hs]
      | true =>
          rw [desiredDeployment_of_selects ht hs,
            desiredDeployment_of_selects ht ((selects_injected ht _ _ _ d).trans hs)]
          have h := congrArg Prod.fst (injectDeployment_injected
            f.metadata.name t.envName f.spec.defaultValue d)
          exact h

omit [Apimachinery] in
theorem deliveredConfigMap_index (f : FeatureFlag)
    (delivery : ConfigMapDelivery) (old : Option ConfigMap) :
    (orEmpty (deliveredConfigMap f delivery old).data).index delivery.key =
      f.spec.defaultValue := by
  unfold deliveredConfigMap
  split
  · simp [newConfigMap, GoMap.index, GoMap.lookup_single]
  · dsimp only
    split
    · simp [GoMap.index]
    · next h => exact not_not.mp h

omit [Apimachinery] in
theorem deliveredConfigMap_of_index {f : FeatureFlag}
    {delivery : ConfigMapDelivery} {cm : ConfigMap}
    (h : (orEmpty cm.data).index delivery.key = f.spec.defaultValue) :
    deliveredConfigMap f delivery (some cm) = cm := by
  simp only [deliveredConfigMap, h, ne_eq, not_true_eq_false, if_false]

theorem desiredConfigMap_idem (f : FeatureFlag) (k : ObjectKey)
    (old : Option ConfigMap) :
    desiredConfigMap f k (desiredConfigMap f k old) =
      desiredConfigMap f k old := by
  cases ht : configMapTarget f with
  | none => rw [desiredConfigMap_of_none ht, desiredConfigMap_of_none ht]
  | some delivery =>
      simp only [desiredConfigMap_of_some ht]
      by_cases hk : k = ⟨f.metadata.ns, delivery.configMapName⟩
      · rw [if_pos hk, if_pos hk]
        have hidx := deliveredConfigMap_index f delivery old
        rw [deliveredConfigMap_of_index hidx]
      · rw [if_neg hk, if_neg hk]

end

/-! ## Variables and keys -/

/-- The `i`-th container of a Deployment. -/
def containerAt (s : Cluster) (k : ObjectKey) (i : Nat) : Option Container :=
  (deployAt s k).bind fun d => d.template.containers[i]?

def SetsVar (var : String) (c : Container) : Prop := ∃ e ∈ c.env, e.name = var

instance (var : String) (c : Container) : Decidable (SetsVar var c) :=
  inferInstanceAs (Decidable (∃ e ∈ c.env, e.name = var))

theorem setsVar_iff {var : String} {c : Container} :
    SetsVar var c ↔ var ∈ c.env.map EnvVar.name := by
  simp [SetsVar]

theorem setsVar_injectContainer {envName value var : String} {c : Container} :
    SetsVar var (injectContainer envName value c).1 ↔
      SetsVar var c ∨ envName = var := by
  have hfirst := firstValue_injectContainer envName value c
  have hset : SetsVar envName (injectContainer envName value c).1 := by
    obtain ⟨e, he, _⟩ := Option.map_eq_some_iff.mp hfirst
    exact ⟨e, List.mem_of_find?_eq_some he, by simpa using List.find?_some he⟩
  -- the names of the entries stay, and at most the injected one is new
  have hnames : (injectContainer envName value c).1.env.map EnvVar.name =
        c.env.map EnvVar.name ∨
      (injectContainer envName value c).1.env.map EnvVar.name =
        c.env.map EnvVar.name ++ [envName] := by
    have hedit := injectContainer_cases envName value c
    generalize (injectContainer envName value c).1.env = env' at hedit
    generalize c.env = env at hedit
    cases hedit with
    | same => exact .inl rfl
    | first pre e post hpre he => exact .inl (by simp)
    | appended hes => exact .inr (by simp)
  rw [setsVar_iff] at hset
  rw [setsVar_iff, setsVar_iff]
  rcases hnames with h | h
  · rw [h] at hset ⊢
    constructor
    · exact .inl
    · rintro (hmem | rfl)
      · exact hmem
      · exact hset
  · rw [h, List.mem_append, List.mem_singleton, @eq_comm _ var]

def valueAt (s : Cluster) (k : ObjectKey) (key : String) : Option String :=
  (configMapAt s k).bind fun cm => (orEmpty cm.data).lookup key

def HasKey (k : ObjectKey) (key : String) (s : Cluster) : Prop :=
  ∃ cm, configMapAt s k = some cm ∧ (orEmpty cm.data).lookup key ≠ none

theorem deliveredConfigMap_hasKey (f : FeatureFlag)
    (delivery : ConfigMapDelivery) (old : Option ConfigMap) (key : String) :
    (orEmpty (deliveredConfigMap f delivery old).data).lookup key ≠ none ↔
      (∃ cm, old = some cm ∧ (orEmpty cm.data).lookup key ≠ none) ∨
        delivery.key = key ∧ (old = none ∨ f.spec.defaultValue ≠ "") := by
  cases old with
  | none =>
      simp only [deliveredConfigMap, newConfigMap, orEmpty_some,
        GoMap.lookup_single]
      by_cases hkey : delivery.key = key
      · simp [hkey]
      · simp [hkey, Ne.symm hkey]
  | some cm =>
      simp only [deliveredConfigMap, Option.some.injEq, exists_eq_left',
        reduceCtorEq, false_or]
      by_cases hkey : delivery.key = key
      · subst hkey
        split
        · next hne =>
            simp only [orEmpty_some, Finmap.lookup_insert, true_and]
            by_cases hnone : (orEmpty cm.data).lookup delivery.key = none
            · rw [GoMap.index, hnone] at hne
              have hvalue : f.spec.defaultValue ≠ "" := Ne.symm hne
              simp [hvalue]
            · simp [hnone]
        · next heq =>
            rw [not_not, GoMap.index] at heq
            by_cases hnone : (orEmpty cm.data).lookup delivery.key = none
            · rw [hnone] at heq
              simp [hnone, ← heq]
            · simp [hnone]
      · split
        · simp [Ne.symm hkey, hkey]
        · simp [hkey]

end Vexil.Operator
