import Vexil.Kube.Types

/-!
# Injecting a flag into a Deployment

The in-memory half of `deliverViaEnvVar`: the loop over the containers of one
Deployment and, inside it, the loop over the env entries of one container. The
search stops at the first entry of the name, changes its `Value` when that
differs and nothing else, and appends an entry when there is none. A Deployment
that changed gets its `vexil.io/flags-hash` annotation.

`EnvEdit` says what can happen to an env list at most, and `firstValue` is what
later files look at: the value the first entry of a name carries. After an
injection it is the flag's value, injecting again changes nothing, and the
first entries of other names are what they were.
-/

namespace Vexil.Operator

open Vexil.Lib Vexil.Kube

/-- The loop over `container.Env`: `none` when no entry has the name, else the
list it leaves and whether it changed. -/
def setEnv (envName value : String) :
    List EnvVar → Option (List EnvVar × Bool)
  | [] => none
  | e :: es =>
      if e.name = envName then
        if e.value ≠ value then some ({ e with value := value } :: es, true)
        else some (e :: es, false)
      else (setEnv envName value es).map fun r => (e :: r.1, r.2)

/-- One round of the loop over the containers, and whether it set `updated`. -/
def injectContainer (envName value : String) (c : Container) :
    Container × Bool :=
  match setEnv envName value c.env with
  | some (env, updated) => ({ c with env := env }, updated)
  | none =>
      ({ c with env := c.env ++ [{ name := envName, value := value }] }, true)

/-- `vexil.io/flags-hash`. -/
def flagsHash : String := "vexil.io/flags-hash"

/-- The body of the loop over the Deployments, up to the `Update` call: the
Deployment it would send and whether it would send it. -/
def injectDeployment (flagName envName value : String) (d : Deployment) :
    Deployment × Bool :=
  let containers :=
    d.template.containers.map fun c => (injectContainer envName value c).1
  let updated :=
    d.template.containers.any fun c => (injectContainer envName value c).2
  if updated then
    ({ d with template := {
        annotations := some ((orEmpty d.template.annotations).insert flagsHash
          (flagName ++ "=" ++ value))
        containers := containers } }, true)
  else (d, false)

/-! ## One env list -/

/-- What an injection may do to an env list: nothing, a new `Value` in the
first entry of the name, or one new entry at the end. -/
inductive EnvEdit (envName value : String) : List EnvVar → List EnvVar → Prop
  | same (es : List EnvVar) : EnvEdit envName value es es
  | first (pre : List EnvVar) (e : EnvVar) (post : List EnvVar)
      (hpre : ∀ x ∈ pre, x.name ≠ envName) (he : e.name = envName) :
      EnvEdit envName value (pre ++ e :: post)
        (pre ++ { e with value := value } :: post)
  | appended (es : List EnvVar) (hes : ∀ x ∈ es, x.name ≠ envName) :
      EnvEdit envName value es (es ++ [{ name := envName, value := value }])

/-- The value the first entry of a name carries. -/
def firstValue (envName : String) (es : List EnvVar) : Option String :=
  (es.find? fun e => e.name = envName).map EnvVar.value

theorem setEnv_eq_none {envName value : String} {es : List EnvVar} :
    setEnv envName value es = none ↔ ∀ e ∈ es, e.name ≠ envName := by
  induction es with
  | nil => simp [setEnv]
  | cons e es ih =>
      rw [setEnv, List.forall_mem_cons]
      split
      · next h => split <;> simp [h]
      · next h => rw [Option.map_eq_none_iff, ih]; simp [h]

/-- A search that finds the name splits the list at its first entry. -/
theorem setEnv_eq_some {envName value : String} {es es' : List EnvVar}
    {u : Bool} (h : setEnv envName value es = some (es', u)) :
    ∃ pre e post, es = pre ++ e :: post ∧ (∀ x ∈ pre, x.name ≠ envName) ∧
      e.name = envName ∧ es' = pre ++ { e with value := value } :: post ∧
      u = decide (e.value ≠ value) := by
  induction es generalizing es' with
  | nil => cases h
  | cons e es ih =>
      rw [setEnv] at h
      split at h
      · next hname =>
          refine ⟨[], e, es, rfl, by simp, hname, ?_⟩
          split at h
          · next hne => cases h; exact ⟨rfl, (decide_eq_true hne).symm⟩
          · next heq =>
              have hv : e.value = value := not_not.mp heq
              cases h
              subst hv
              exact ⟨rfl, by simp⟩
      · next hname =>
          obtain ⟨⟨es₁, u₁⟩, hset, heq⟩ := Option.map_eq_some_iff.mp h
          cases heq
          obtain ⟨pre, x, post, rfl, hpre, hx, rfl, rfl⟩ := ih hset
          refine ⟨e :: pre, x, post, rfl, ?_, hx, rfl, rfl⟩
          exact List.forall_mem_cons.mpr ⟨hname, hpre⟩

theorem find?_first {envName : String} {pre post : List EnvVar} {e : EnvVar}
    (hpre : ∀ x ∈ pre, x.name ≠ envName) (he : e.name = envName) :
    (pre ++ e :: post).find? (fun x => x.name = envName) = some e := by
  rw [List.find?_append, List.find?_eq_none.mpr (by simpa using hpre)]
  simp [he]

theorem find?_skip {envName other : String} {pre post : List EnvVar}
    {e e' : EnvVar} (he : e.name = envName) (he' : e'.name = envName)
    (hne : other ≠ envName) :
    (pre ++ e' :: post).find? (fun x => x.name = other) =
      (pre ++ e :: post).find? (fun x => x.name = other) := by
  have h : ¬ e.name = other := fun h => hne (h.symm.trans he)
  have h' : ¬ e'.name = other := fun h => hne (h.symm.trans he')
  simp [List.find?_append, h, h']

/-! ## One container -/

theorem injectContainer_cases (envName value : String) (c : Container) :
    EnvEdit envName value c.env (injectContainer envName value c).1.env := by
  unfold injectContainer
  split
  · next env updated hset =>
      obtain ⟨pre, e, post, hes, hpre, he, rfl, _⟩ := setEnv_eq_some hset
      rw [hes]
      exact .first pre e post hpre he
  · next hset => exact .appended c.env (setEnv_eq_none.mp hset)

/-- Nothing else of a container is touched. -/
theorem injectContainer_frame (envName value : String) (c : Container) :
    (injectContainer envName value c).1 =
      { c with env := (injectContainer envName value c).1.env } := by
  unfold injectContainer
  split <;> rfl

/-- The point of it all: the first entry of the name carries the value. -/
theorem firstValue_injectContainer (envName value : String) (c : Container) :
    firstValue envName (injectContainer envName value c).1.env = some value := by
  unfold injectContainer firstValue
  split
  · next env updated hset =>
      obtain ⟨pre, e, post, _, hpre, he, rfl, _⟩ := setEnv_eq_some hset
      rw [find?_first hpre
        (show ({ e with value := value } : EnvVar).name = envName from he)]
      rfl
  · next hset =>
      rw [find?_first (setEnv_eq_none.mp hset) (by rfl)]
      rfl

theorem firstValue_injectContainer_ne {envName value other : String}
    (h : other ≠ envName) (c : Container) :
    firstValue other (injectContainer envName value c).1.env =
      firstValue other c.env := by
  unfold injectContainer firstValue
  split
  · next env updated hset =>
      obtain ⟨pre, e, post, hes, _, he, rfl, _⟩ := setEnv_eq_some hset
      rw [hes]
      exact congrArg _ (find?_skip he he h)
  · simp [List.find?_append, Ne.symm h]

/-- A container whose first entry already carries the value is left alone. -/
theorem injectContainer_of_firstValue {envName value : String} {c : Container}
    (h : firstValue envName c.env = some value) :
    injectContainer envName value c = (c, false) := by
  unfold injectContainer
  split
  · next env updated hset =>
      obtain ⟨pre, e, post, hes, hpre, he, rfl, rfl⟩ := setEnv_eq_some hset
      rw [firstValue, hes, find?_first hpre he] at h
      have hv : e.value = value := by simpa using h
      subst hv
      rw [← hes]
      simp
  · next hset =>
      rw [firstValue, List.find?_eq_none.mpr
        (by simpa using setEnv_eq_none.mp hset)] at h
      cases h

/-! ## One Deployment -/

/-- Every container's first entry of the name carries the value. -/
def HasEnv (envName value : String) (d : Deployment) : Prop :=
  ∀ c ∈ d.template.containers, firstValue envName c.env = some value

instance (envName value : String) (d : Deployment) :
    Decidable (HasEnv envName value d) :=
  inferInstanceAs (Decidable (∀ c ∈ d.template.containers,
    firstValue envName c.env = some value))

/-- The Deployment `injectDeployment` would send, or the old one. -/
def injected (flagName envName value : String) (d : Deployment) : Deployment :=
  (injectDeployment flagName envName value d).1

theorem injectDeployment_of_hasEnv {flagName envName value : String}
    {d : Deployment} (h : HasEnv envName value d) :
    injectDeployment flagName envName value d = (d, false) := by
  have hany : (d.template.containers.any fun c =>
      (injectContainer envName value c).2) = false := by
    rw [List.any_eq_false]
    intro c hc
    simp [injectContainer_of_firstValue (h c hc)]
  simp [injectDeployment, hany]

theorem injectDeployment_not_updated {flagName envName value : String}
    {d : Deployment} (h : (injectDeployment flagName envName value d).2 = false) :
    injected flagName envName value d = d := by
  unfold injected injectDeployment at *
  dsimp only at *
  split at h
  · cases h
  · next hu => rw [if_neg hu]

/-- The containers of the result are the containers one round after another,
also when nothing had to change. -/
theorem containers_injected (flagName envName value : String) (d : Deployment) :
    (injected flagName envName value d).template.containers =
      d.template.containers.map fun c => (injectContainer envName value c).1 := by
  unfold injected injectDeployment
  dsimp only
  split
  · rfl
  · next hu =>
      rw [Bool.not_eq_true, List.any_eq_false] at hu
      refine (List.map_id' d.template.containers).symm.trans
        (List.map_congr_left fun c hc => ?_)
      have hc := hu c hc
      unfold injectContainer at hc ⊢
      split at hc
      · next env updated hset =>
          obtain ⟨pre, e, post, hes, _, _, rfl, rfl⟩ := setEnv_eq_some hset
          have hv : e.value = value := by simpa using hc
          subst hv
          rw [← hes]
      · exact absurd rfl hc

theorem hasEnv_injected (flagName envName value : String) (d : Deployment) :
    HasEnv envName value (injected flagName envName value d) := by
  intro c hc
  rw [containers_injected, List.mem_map] at hc
  obtain ⟨c₀, _, rfl⟩ := hc
  exact firstValue_injectContainer envName value c₀

/-- Injecting one name leaves the first entries of the others alone. -/
theorem hasEnv_injected_ne {flagName envName value other v : String}
    {d : Deployment} (hne : other ≠ envName) (h : HasEnv other v d) :
    HasEnv other v (injected flagName envName value d) := by
  intro c hc
  rw [containers_injected, List.mem_map] at hc
  obtain ⟨c₀, hc₀, rfl⟩ := hc
  rw [firstValue_injectContainer_ne hne]
  exact h c₀ hc₀

theorem metadata_injected (flagName envName value : String) (d : Deployment) :
    (injected flagName envName value d).metadata = d.metadata := by
  unfold injected injectDeployment
  dsimp only
  split <;> rfl

theorem replicas_injected (flagName envName value : String) (d : Deployment) :
    (injected flagName envName value d).replicas = d.replicas := by
  unfold injected injectDeployment
  dsimp only
  split <;> rfl

/-- Of the annotations only the flags hash can change. -/
theorem annotations_injected (flagName envName value k : String)
    (d : Deployment) (hk : k ≠ flagsHash) :
    (orEmpty (injected flagName envName value d).template.annotations).lookup k =
      (orEmpty d.template.annotations).lookup k := by
  unfold injected injectDeployment
  dsimp only
  split
  · simp [hk]
  · rfl

/-- Injecting twice is injecting once. -/
theorem injectDeployment_injected (flagName envName value : String)
    (d : Deployment) :
    injectDeployment flagName envName value
        (injected flagName envName value d) =
      (injected flagName envName value d, false) :=
  injectDeployment_of_hasEnv (hasEnv_injected flagName envName value d)

end Vexil.Operator
