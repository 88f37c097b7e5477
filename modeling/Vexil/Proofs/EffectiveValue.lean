import Vexil.Operator.Outcome
import Vexil.Sdk.Pod

/-!
# The value a container gets

An env list is a list of assignments: what a container gets under a name is what
the last entry of that name says, its value or what its reference stands for.
The injection looks for the first entry of the name and compares its value
alone. So it makes the flag's value the effective one where the name occurs once
with no reference, or not at all. Everywhere else the effective value stays as
it is: a later entry of the name is not looked at, and the only update over a
reference that the API server would accept is one that leaves the value empty.
-/

namespace Vexil.Operator

open Vexil.Lib Vexil.Kube Vexil.Sdk

/-! ## One env list -/

/-- The variable in the environment that an env list makes, when no value has
anything to expand. -/
def effectiveValue (resolve : EnvVarSource → String) (name : String)
    (env : List EnvVar) : Option String :=
  (Kubelet.environ ⟨fun _ v => v, resolve⟩ ∅ env).lookup name

/-- What an entry says. -/
def ownValue (resolve : EnvVarSource → String) (e : EnvVar) : String :=
  if e.value ≠ "" then e.value
  else
    match e.valueFrom with
    | none => ""
    | some source => resolve source

/-- An env list says what a variable is, or leaves it as it is. -/
theorem lookup_environ_plain (resolve : EnvVarSource → String) (name : String)
    (image : GoMap String) (env : List EnvVar) :
    (Kubelet.environ ⟨fun _ v => v, resolve⟩ image env).lookup name =
      (effectiveValue resolve name env).or (image.lookup name) := by
  induction env generalizing image with
  | nil => rfl
  | cons e es ih =>
      rw [effectiveValue]
      unfold Kubelet.environ at ih ⊢
      rw [List.foldl_cons, List.foldl_cons, ih, ih, Kubelet.add, Kubelet.add,
        GoMap.lookup_insert, GoMap.lookup_insert, Finmap.lookup_empty,
        Option.or_assoc]
      split <;> rfl

theorem effectiveValue_append (resolve : EnvVarSource → String) (name : String)
    (xs ys : List EnvVar) : effectiveValue resolve name (xs ++ ys) =
      (effectiveValue resolve name ys).or (effectiveValue resolve name xs) := by
  rw [effectiveValue, Kubelet.environ, List.foldl_append]
  exact lookup_environ_plain resolve name _ ys

theorem effectiveValue_single (resolve : EnvVarSource → String) (e : EnvVar) :
    effectiveValue resolve e.name [e] = some (ownValue resolve e) :=
  Finmap.lookup_insert _

theorem effectiveValue_eq_none {resolve : EnvVarSource → String}
    {name : String} {env : List EnvVar} :
    effectiveValue resolve name env = none ↔ ∀ e ∈ env, e.name ≠ name := by
  rw [effectiveValue, lookup_environ, Finmap.lookup_empty]
  exact and_iff_right rfl

/-- Where the first entry of a name stands, the later ones decide. -/
theorem effectiveValue_first {resolve : EnvVarSource → String}
    {pre post : List EnvVar} {e : EnvVar} (hpre : ∀ x ∈ pre, x.name ≠ e.name) :
    effectiveValue resolve e.name (pre ++ e :: post) =
      (effectiveValue resolve e.name post).or (some (ownValue resolve e)) := by
  rw [effectiveValue_append, effectiveValue_eq_none.mpr hpre, Option.or_none,
    ← List.singleton_append, effectiveValue_append, effectiveValue_single]

/-! ## One container -/

/-- An entry has a value or a reference, not both. -/
def WellFormed (env : List EnvVar) : Prop :=
  ∀ e ∈ env, e.value = "" ∨ e.valueFrom = none

instance (env : List EnvVar) : Decidable (WellFormed env) :=
  inferInstanceAs (Decidable (∀ e ∈ env, e.value = "" ∨ e.valueFrom = none))

/-- The list does not have the name, or has it once without a reference, or
gives it the value already. -/
def TakesValue (resolve : EnvVarSource → String) (name value : String)
    (env : List EnvVar) : Prop :=
  (env.filter fun e => e.name = name) = [] ∨
  (∃ e ∈ env, (env.filter fun e => e.name = name) = [e] ∧
    e.valueFrom = none) ∨
  effectiveValue resolve name env = some value

instance (resolve : EnvVarSource → String) (name value : String)
    (env : List EnvVar) : Decidable (TakesValue resolve name value env) :=
  inferInstanceAs (Decidable (_ ∨ _ ∨ _))

theorem filter_first {pre post : List EnvVar} {e : EnvVar}
    (hpre : ∀ x ∈ pre, x.name ≠ e.name) :
    ((pre ++ e :: post).filter fun x => x.name = e.name) =
      e :: post.filter fun x => x.name = e.name := by
  have hnil : (pre.filter fun x => x.name = e.name) = [] := by
    simpa [List.filter_eq_nil_iff] using hpre
  rw [List.filter_append, hnil, List.nil_append, List.filter_cons_of_pos]
  simp

/-- Two entries of the same name are more than one. -/
theorem takesValue_repeated {resolve : EnvVarSource → String} {value : String}
    {pre post : List EnvVar} {e x : EnvVar}
    (hpre : ∀ x ∈ pre, x.name ≠ e.name) (hx : x ∈ post)
    (hname : x.name = e.name) :
    TakesValue resolve e.name value (pre ++ e :: post) ↔
      effectiveValue resolve e.name (pre ++ e :: post) = some value := by
  have hmem : x ∈ post.filter fun x => x.name = e.name :=
    List.mem_filter.mpr ⟨hx, decide_eq_true hname⟩
  rw [TakesValue, filter_first hpre]
  constructor
  · rintro (hnil | ⟨y, _, hsingle, _⟩ | h)
    · cases hnil
    · rw [(List.cons.inj hsingle).2] at hmem
      cases hmem
    · exact h
  · exact fun h => .inr (.inr h)

/-- The only entry of its name. -/
theorem takesValue_single {resolve : EnvVarSource → String} {value : String}
    {pre post : List EnvVar} {e : EnvVar} (hpre : ∀ x ∈ pre, x.name ≠ e.name)
    (hpost : ∀ x ∈ post, x.name ≠ e.name) :
    TakesValue resolve e.name value (pre ++ e :: post) ↔
      e.valueFrom = none ∨ ownValue resolve e = value := by
  have hnil : (post.filter fun x => x.name = e.name) = [] := by
    simpa [List.filter_eq_nil_iff] using hpost
  rw [TakesValue, filter_first hpre, hnil, effectiveValue_first hpre,
    effectiveValue_eq_none.mpr hpost, Option.none_or]
  simp

/-- To set the value of an entry that has a reference is to leave it. -/
theorem ownValue_set {resolve : EnvVarSource → String} {value : String}
    {e : EnvVar} (hold : e.value = "" ∨ e.valueFrom = none)
    (hnew : value = "" ∨ e.valueFrom = none) :
    ownValue resolve { e with value := value } = value ↔
      e.valueFrom = none ∨ ownValue resolve e = value := by
  cases hfrom : e.valueFrom with
  | none =>
      refine iff_of_true ?_ (.inl rfl)
      rw [ownValue]
      by_cases hvalue : value = ""
      · simp [hvalue]
      · simp [hvalue]
  | some source =>
      rw [hfrom] at hold hnew
      obtain rfl := hnew.resolve_right (Option.some_ne_none source)
      have hempty := hold.resolve_right (Option.some_ne_none source)
      simp [ownValue, hfrom, hempty]

theorem effective_injectContainer {resolve : EnvVarSource → String}
    {name value : String} {c : Container} (hold : WellFormed c.env)
    (hnew : WellFormed (injectContainer name value c).1.env) :
    effectiveValue resolve name (injectContainer name value c).1.env =
      some value ↔ TakesValue resolve name value c.env := by
  unfold injectContainer at hnew ⊢
  split
  · next env updated hset =>
      rw [hset] at hnew
      obtain ⟨pre, e, post, hes, hpre, rfl, rfl, _⟩ := setEnv_eq_some hset
      have hafter : effectiveValue resolve e.name
          (pre ++ { e with value := value } :: post) =
            (effectiveValue resolve e.name post).or
              (some (ownValue resolve { e with value := value })) :=
        effectiveValue_first hpre
      rw [hes] at hold ⊢
      show effectiveValue resolve e.name
        (pre ++ { e with value := value } :: post) = some value ↔ _
      rw [hafter]
      cases hpost : effectiveValue resolve e.name post with
      | some v =>
          have hmore : ∃ x ∈ post, x.name = e.name := by
            by_contra hno
            rw [effectiveValue_eq_none.mpr fun x hx hname =>
              hno ⟨x, hx, hname⟩] at hpost
            cases hpost
          obtain ⟨x, hx, hname⟩ := hmore
          rw [takesValue_repeated hpre hx hname, effectiveValue_first hpre,
            hpost, Option.some_or, Option.some_or]
      | none =>
          rw [takesValue_single hpre (effectiveValue_eq_none.mp hpost),
            Option.none_or, Option.some.injEq]
          exact ownValue_set
            (hold e (List.mem_append_right _ List.mem_cons_self))
            (hnew _ (List.mem_append_right _ List.mem_cons_self))
  · next hset =>
      have hnone := setEnv_eq_none.mp hset
      have hfilter : (c.env.filter fun e => e.name = name) = [] := by
        simpa [List.filter_eq_nil_iff] using hnone
      refine iff_of_true ?_ (.inl hfilter)
      have hsingle := effectiveValue_single resolve
        { name := name, value := value }
      rw [effectiveValue_append, hsingle, Option.some_or, ownValue]
      by_cases hvalue : value = ""
      · simp [hvalue]
      · simp [hvalue]

/-! ## The delivery -/

/-- The API server stores no container with an entry that has both. -/
def EnvsWellFormed (s : Cluster) : Prop :=
  ∀ d ∈ s.deployments.rows.items, ∀ c ∈ d.template.containers, WellFormed c.env

instance (s : Cluster) : Decidable (EnvsWellFormed s) :=
  inferInstanceAs (Decidable (∀ d ∈ s.deployments.rows.items,
    ∀ c ∈ d.template.containers, WellFormed c.env))

/-- A delivery that returns no error leaves the flag's value as the effective
one, in every container of every matching Deployment, if and only if each of
these containers took it: it did not have the variable, or had it once without
a reference, or the value was the effective one already. -/
theorem effective_value_iff [Apimachinery] (resolve : EnvVarSource → String)
    {f : FeatureFlag} {delivery : EnvVarDelivery}
    {selector : GoMap String → Bool} {value : String} {n : Nat}
    {s s' : Cluster} {tr : List KubeEvent} (hs : EnvsWellFormed s)
    (hsel : Apimachinery.labelSelectorAsSelector delivery.selector =
      .ok selector)
    (h : Completes (Into KubeStep EnvsWellFormed)
      (deliverViaEnvVar f delivery value) s tr (.ok n) s') :
    (∀ d ∈ s'.deployments.rows.items, d.metadata.ns = f.metadata.ns →
      selector d.metadata.labels = true → ∀ c ∈ d.template.containers,
        effectiveValue resolve (envVarName f delivery) c.env = some value) ↔
    (∀ d ∈ s.deployments.rows.items, d.metadata.ns = f.metadata.ns →
      selector d.metadata.labels = true → ∀ c ∈ d.template.containers,
        TakesValue resolve (envVarName f delivery) value c.env) := by
  have hs' : EnvsWellFormed s' :=
    h.2.invariant (fun _ _ _ _ hstep => hstep.2) hs
  obtain ⟨_, _, hall⟩ := envVar_ok hsel (h.mono fun _ _ _ hstep => hstep.1)
  -- the containers correspond, one injected into the other
  have hcontainer : ∀ d ∈ s.deployments.rows.items,
      ∀ d' ∈ s'.deployments.rows.items,
      d'.template.containers = d.template.containers.map (fun c =>
        (injectContainer (envVarName f delivery) value c).1) →
      ∀ c ∈ d.template.containers,
        (effectiveValue resolve (envVarName f delivery)
          (injectContainer (envVarName f delivery) value c).1.env =
            some value ↔
          TakesValue resolve (envVarName f delivery) value c.env) := by
    intro d hd d' hd' hcontainers c hc
    refine effective_injectContainer (hs d hd c hc) (hs' d' hd' _ ?_)
    rw [hcontainers]
    exact List.mem_map_of_mem hc
  constructor
  · intro heffective d hd hns hlabels c hc
    obtain ⟨d', hd', hcontent⟩ := stored_after hall hd
    obtain ⟨hns', hlabels', hcontainers⟩ := content_injectedIf hcontent
    have hinjected := hcontainers hns hlabels
    refine (hcontainer d hd d' hd' hinjected c hc).mp ?_
    refine heffective d' hd' (hns' ▸ hns) (hlabels' ▸ hlabels) _ ?_
    rw [hinjected]
    exact List.mem_map_of_mem hc
  · intro htakes d' hd' hns' hlabels' c' hc'
    obtain ⟨d, hd, hcontent⟩ := stored_before hall hd'
    obtain ⟨hns, hlabels, hcontainers⟩ := content_injectedIf hcontent
    rw [hns] at hns'
    rw [hlabels] at hlabels'
    have hinjected := hcontainers hns' hlabels'
    rw [hinjected] at hc'
    obtain ⟨c, hc, rfl⟩ := List.mem_map.mp hc'
    exact (hcontainer d hd d' hd' hinjected c hc).mpr
      (htakes d hd hns' hlabels' c hc)

/-- The faultless answer, when what it stores is well formed. -/
def serveAdmitted (c : KubeCall) (s : Cluster) : c.Reply × Cluster :=
  if EnvsWellFormed (c.serve s).2 then c.serve s
  else (.error ⟨none, "may not be specified when value is not empty"⟩, s)

theorem run_admitted {s s' : Cluster} {tr : List KubeEvent}
    (hs : EnvsWellFormed s) (h : Run (Answers serveAdmitted) s tr s') :
    Run (Into KubeStep EnvsWellFormed) s tr s' := by
  induction h with
  | nil => exact .nil
  | @cons s m s' e es hstep _ ih =>
      have hinto : Into KubeStep EnvsWellFormed s e m := by
        have hserve : serveAdmitted e.call s = (e.reply, m) := hstep
        rw [serveAdmitted] at hserve
        split at hserve
        · next hwf =>
            rw [hserve] at hwf
            exact ⟨⟨none, hserve⟩, hwf⟩
        · have hm : s = m := congrArg Prod.snd hserve
          exact ⟨⟨some _, hserve⟩, hm ▸ hs⟩
      exact .cons hinto (ih hinto.2)

/-! A Deployment of the flag's application, and the default environment of its
only container after the delivery. -/

def darkDelivery : EnvVarDelivery := { selector := some (sampleSelector "web") }

def darkCluster (env : List EnvVar) : Cluster where
  deployments := VTable.empty.write (sampleDeployment "web" "web" env)

def darkRun (env : List EnvVar) :
    List KubeEvent × Except String Nat × Cluster :=
  letI := labelSelectors
  (deliverViaEnvVar (sampleFlag {}) darkDelivery "true").exec serveAdmitted
    (darkCluster env)

def darkValues (s : Cluster) : List (Option String) :=
  s.deployments.rows.items.flatMap fun d => d.template.containers.map fun c =>
    effectiveValue (fun _ => "") "FLAG_DARK_MODE" c.env

theorem effective_value_iff_sample :
    ∃ selector, labelSelectors.labelSelectorAsSelector darkDelivery.selector =
        .ok selector ∧
      (darkRun []).2.1 = .ok 1 ∧
      ∀ d ∈ (darkRun []).2.2.deployments.rows.items,
        d.metadata.ns = "default" → selector d.metadata.labels = true →
        ∀ c ∈ d.template.containers,
          effectiveValue (fun _ => "") "FLAG_DARK_MODE" c.env =
            some "true" := by
  let := labelSelectors
  have hwf : EnvsWellFormed (darkCluster []) := by decide
  have hok : (darkRun []).2.1 = .ok 1 := by decide
  have hexec := Prog.exec_completes serveAdmitted
    (deliverViaEnvVar (sampleFlag {}) darkDelivery "true") (darkCluster [])
  have hrun : Completes (Into KubeStep EnvsWellFormed)
      (deliverViaEnvVar (sampleFlag {}) darkDelivery "true") (darkCluster [])
      (darkRun []).1 (.ok 1) (darkRun []).2.2 :=
    ⟨hok ▸ hexec.1, run_admitted hwf hexec.2⟩
  have htakes : ∀ d ∈ (darkCluster []).deployments.rows.items,
      ∀ c ∈ d.template.containers,
        TakesValue (fun _ => "") "FLAG_DARK_MODE" "true" c.env := by decide
  have hname : envVarName (sampleFlag {}) darkDelivery = "FLAG_DARK_MODE" := by
    decide
  obtain ⟨selector, hsel⟩ : ∃ selector,
      Apimachinery.labelSelectorAsSelector darkDelivery.selector =
        .ok selector := ⟨_, rfl⟩
  have hiff := effective_value_iff (fun _ => "") hwf hsel hrun
  rw [hname] at hiff
  exact ⟨selector, hsel, hok, hiff.mpr fun d hd _ _ => htakes d hd⟩

/-- The first entry is set, and the container gets the second. -/
theorem later_entry_wins :
    let env := [{ name := "FLAG_DARK_MODE", value := "false" },
      { name := "FLAG_DARK_MODE", value := "off" }]
    EnvsWellFormed (darkCluster env) ∧ (darkRun env).2.1 = .ok 1 ∧
      darkValues (darkRun env).2.2 = [some "off"] := by
  decide

/-- Over a reference the update is refused. -/
example : (darkRun [{ name := "FLAG_DARK_MODE"
                      valueFrom := some { fieldPath := some "x" } }]).2.1 =
    .error ("updating deployment web: " ++
      "may not be specified when value is not empty") := by decide

end Vexil.Operator
