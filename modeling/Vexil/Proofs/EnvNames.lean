import Mathlib.Data.Set.Card
import Vexil.Operator.Desired
import Vexil.Proofs.WriteFrame

/-!
# Env lists under many reconciles

An injection looks for the name before it appends, so it appends a name only to
a list that does not have it. `Grown` is what that comes to over any number of
injections: up to values the list is the old one, and then one entry for each of
some new names, all different. Injections of one name by several flags, with
other values or from stale lists, are no exception, since an update is accepted
only over the list it was computed from.
-/

namespace Vexil.Operator

open Vexil.Lib Vexil.Kube

/-! ## One env list -/

/-- An entry up to its value. -/
def slot (e : EnvVar) : EnvVar := { e with value := "" }

/-- Up to values, the list with one entry more for each of some new names. -/
def Grown (names : Set String) (es es' : List EnvVar) : Prop :=
  ∃ added : List String,
    es'.map slot = es.map slot ++ added.map (fun name => { name := name }) ∧
    added.Nodup ∧ ∀ name ∈ added, name ∈ names ∧ name ∉ es.map EnvVar.name

theorem Grown.refl (names : Set String) (es : List EnvVar) :
    Grown names es es := ⟨[], by simp, by simp, by simp⟩

theorem Grown.mono {names names' : Set String} {es es' : List EnvVar}
    (h : Grown names es es') (hsub : names ⊆ names') : Grown names' es es' := by
  obtain ⟨added, heq, hnodup, hadded⟩ := h
  exact ⟨added, heq, hnodup, fun name hname =>
    ⟨hsub (hadded name hname).1, (hadded name hname).2⟩⟩

theorem names_slot (es : List EnvVar) :
    (es.map slot).map EnvVar.name = es.map EnvVar.name := by
  rw [List.map_map]
  rfl

theorem names_of_slots {es es' : List EnvVar} {added : List String}
    (h : es'.map slot = es.map slot ++ added.map fun name => { name := name }) :
    es'.map EnvVar.name = es.map EnvVar.name ++ added := by
  have hnames := congrArg (List.map EnvVar.name) h
  rw [List.map_append, names_slot, names_slot, List.map_map] at hnames
  rw [hnames]
  congr 1
  exact List.map_id' added

/-- What one injection does, up to values. -/
theorem slots_edit {name value : String} {es es' : List EnvVar}
    (h : EnvEdit name value es es') : es'.map slot = es.map slot ∨
      name ∉ es.map EnvVar.name ∧
        es'.map slot = es.map slot ++ [{ name := name }] := by
  cases h with
  | same => exact .inl rfl
  | first pre e post hpre he =>
      refine .inl ?_
      rw [List.map_append, List.map_append]
      rfl
  | appended _ hes =>
      refine .inr ⟨fun hmem => ?_, by rw [List.map_append]; rfl⟩
      obtain ⟨x, hx, hname⟩ := List.mem_map.mp hmem
      exact hes x hx hname

/-- The step lemma. -/
theorem Grown.edit {names : Set String} {name value : String}
    {es es' es'' : List EnvVar} (h : Grown names es es')
    (hedit : EnvEdit name value es' es'') :
    Grown (insert name names) es es'' := by
  obtain ⟨added, heq, hnodup, hadded⟩ := h
  rcases slots_edit hedit with hsame | ⟨hnew, happended⟩
  · refine Grown.mono ⟨added, hsame.trans heq, hnodup, hadded⟩ ?_
    exact Set.subset_insert name names
  · rw [names_of_slots heq, List.mem_append, not_or] at hnew
    refine ⟨added ++ [name], ?_, ?_, ?_⟩
    · rw [happended, heq, List.map_append, List.append_assoc]
      rfl
    · rw [← List.concat_eq_append, List.nodup_concat]
      exact ⟨hnew.2, hnodup⟩
    · intro x hx
      rcases List.mem_append.mp hx with hx | hx
      · exact ⟨.inr (hadded x hx).1, (hadded x hx).2⟩
      · obtain rfl := List.mem_singleton.mp hx
        exact ⟨.inl rfl, hnew.1⟩

/-! What a list that has grown keeps. -/

theorem Grown.nodup {names : Set String} {es es' : List EnvVar}
    (h : Grown names es es') (hnodup : (es.map EnvVar.name).Nodup) :
    (es'.map EnvVar.name).Nodup := by
  obtain ⟨added, heq, hadded, hnew⟩ := h
  rw [names_of_slots heq]
  exact hnodup.append hadded fun name hold hname => (hnew name hname).2 hold

theorem Grown.prefix {names : Set String} {es es' : List EnvVar}
    (h : Grown names es es') : es.map slot <+: es'.map slot := by
  obtain ⟨added, heq, _⟩ := h
  exact ⟨_, heq.symm⟩

theorem Grown.length_le {names : Set String} {es es' : List EnvVar}
    (h : Grown names es es') :
    (es'.length : ℕ∞) ≤ es.length + names.encard := by
  obtain ⟨added, heq, hnodup, hnew⟩ := h
  have hlength : es'.length = es.length + added.length := by
    simpa using congrArg List.length heq
  have hsub : (added.toFinset : Set String) ⊆ names := fun name hname =>
    (hnew name (List.mem_toFinset.mp (Finset.mem_coe.mp hname))).1
  have hcard : (added.length : ℕ∞) ≤ names.encard := by
    rw [← List.toFinset_card_of_nodup hnodup,
      ← Set.encard_coe_eq_coe_finsetCard]
    exact Set.encard_le_encard hsub
  rw [hlength, Nat.cast_add]
  gcongr

/-! ## The containers of a cluster -/

/-- Corresponding containers, in the same places. -/
abbrev Containers (R : Container → Container → Prop) (s s' : Cluster) : Prop :=
  ∀ k i, Option.Rel R (containerAt s k i) (containerAt s' k i)

theorem rel_self {α : Type} {R : α → α → Prop} (h : ∀ a, R a a)
    (o : Option α) : Option.Rel R o o := by
  cases o with
  | none => exact .none
  | some a => exact .some (h a)

theorem rel_trans {α : Type} {R S T : α → α → Prop} {x y z : Option α}
    (h : ∀ a b c, R a b → S b c → T a c) (h₁ : Option.Rel R x y)
    (h₂ : Option.Rel S y z) : Option.Rel T x z := by
  cases h₁ with
  | none =>
      cases h₂ with
      | none => exact .none
  | some hab =>
      cases h₂ with
      | some hbc => exact .some (h _ _ _ hab hbc)

theorem mem_of_containerAt {s : Cluster} {k : ObjectKey} {i : Nat}
    {c : Container} (h : containerAt s k i = some c) :
    ∃ d ∈ s.deployments.rows.items, c ∈ d.template.containers := by
  obtain ⟨d', hd', hi⟩ := Option.bind_eq_some_iff.mp h
  obtain ⟨d, hd, rfl⟩ := Option.map_eq_some_iff.mp hd'
  exact ⟨d, Table.mem_of_get? hd, List.mem_of_getElem? hi⟩

theorem containers_same {s s' : Cluster} {R : Container → Container → Prop}
    (hR : ∀ c, R c c) (h : s'.deployments = s.deployments) :
    Containers R s s' := by
  intro k i
  rw [containerAt, containerAt, deployAt, deployAt, h]
  exact rel_self hR _

/-- An accepted update with an injection, over the Deployment it was computed
from. -/
theorem containers_write {flagName envName value : String} {d : Deployment}
    {s : Cluster} (hd : s.deployments.get? d.metadata.objectKey = some d)
    (k : ObjectKey) (i : Nat) :
    Option.Rel (fun c c' => c' = c ∨ k = d.metadata.objectKey ∧
        EnvEdit envName value c.env c'.env)
      (containerAt s k i)
      (containerAt { s with
        deployments := s.deployments.write
          (injected flagName envName value d) } k i) := by
  have hkey : Versioned.key (injected flagName envName value d) =
      d.metadata.objectKey := by
    show (injected flagName envName value d).metadata.objectKey = _
    rw [metadata_injected]
  have hget := VTable.get?_write s.deployments
    (injected flagName envName value d) k
  rw [hkey] at hget
  rw [containerAt, containerAt, deployAt, deployAt, hget]
  split
  · next hk =>
      subst hk
      rw [hd]
      show Option.Rel _ d.template.containers[i]?
        (injected flagName envName value d).template.containers[i]?
      rw [containers_injected, List.getElem?_map]
      cases d.template.containers[i]? with
      | none => exact .none
      | some c => exact .some (.inr ⟨rfl, injectContainer_cases _ _ c⟩)
  · exact rel_self (fun _ => .inl rfl) _

/-- Only an update of a Deployment touches the Deployments. -/
theorem deployments_of_kubeStep {s s' : Cluster} {c : KubeCall}
    {r : c.Reply} (h : KubeStep s ⟨c, r⟩ s')
    (hc : ∀ d, c ≠ .updateDeployment d) : s'.deployments = s.deployments := by
  rcases kubeStep_cases h with hclean | ⟨_, _, hs⟩
  · have hs' : (c.serve s).2 = s' := congrArg Prod.snd hclean
    rw [← hs']
    cases c with
    | updateDeployment d => exact absurd rfl (hc d)
    | deleteFlag key =>
        rw [KubeCall.serve]
        split <;> rfl
    | _ => rfl
  · rw [hs]

theorem apply_keeps_deployments {w : OtherWrite} {s : Cluster}
    (hput : ∀ d, w ≠ .putDeployment d) (hdel : ∀ k, w ≠ .deleteDeployment k) :
    (w.apply s).deployments = s.deployments := by
  cases w with
  | putDeployment d => exact absurd rfl (hput d)
  | deleteDeployment k => exact absurd rfl (hdel k)
  | putFlag f =>
      rw [OtherWrite.apply]
      split
      · rfl
      · exact deployments_writeFlag
  | putFlagStatus f =>
      rw [OtherWrite.apply]
      split
      · rfl
      · exact deployments_writeFlag
  | deleteFlag | putConfigMap | deleteConfigMap | tick => rfl

/-! ## The run -/

section
variable {ι : Type}

/-- The step delivers the variable `name` to the Deployment: it is an accepted
update with an injection, by a reconcile that read a flag of that variable. -/
def DeliversName (reqs : ι → ObjectKey) (ls : List (SystemLabel ι))
    (l : SystemLabel ι) (k : ObjectKey) (name : String) : Prop :=
  ∃ i f delivery d r,
    l = .own i ⟨.updateDeployment (injected f.metadata.name name
      f.spec.defaultValue d), .ok r⟩ ∧
    d.metadata.objectKey = k ∧
    Label.own i ⟨.getFlag (reqs i), .ok f⟩ ∈ ls ∧
    f.spec.delivery.bind DeliverySpec.envVar = some delivery ∧
    envVarName f delivery = name

/-- The names that some steps of a run deliver. -/
def deliveredNames (reqs : ι → ObjectKey) (ls steps : List (SystemLabel ι))
    (k : ObjectKey) : Set String :=
  { name | ∃ l ∈ steps, DeliversName reqs ls l k name }

theorem deliveredNames_mono {reqs : ι → ObjectKey}
    {ls ls' steps steps' : List (SystemLabel ι)} (hls : ls ⊆ ls')
    (hsteps : steps ⊆ steps') (k : ObjectKey) :
    deliveredNames reqs ls steps k ⊆ deliveredNames reqs ls' steps' k := by
  rintro name ⟨l, hl, i, f, delivery, d, r, heq, hkey, hget, hrest⟩
  exact ⟨l, hsteps hl, i, f, delivery, d, r, heq, hkey, hls hget, hrest⟩

variable [Apimachinery] [DecidableEq ι]

/-- One call of one reconcile, after any run: a container stays as it is, or it
is edited by a step that delivers the name. -/
theorem containers_own {nows : ι → Nat} {reqs : ι → ObjectKey}
    {s₀ s s' : Cluster} {ls : List (SystemLabel ι)} {i : ι} {e : KubeEvent}
    (hrun : Run SystemStep s₀ ls s)
    (hcall : OperatorCall (nows i) (reqs i) (proj i ls) e.call)
    (hstep : StaleStep s e s') (k : ObjectKey) (j : Nat) :
    Option.Rel (fun c c' => c' = c ∨ ∃ name value,
        name ∈ deliveredNames reqs ls [.own i e] k ∧
        EnvEdit name value c.env c'.env)
      (containerAt s k j) (containerAt s' k j) := by
  have hsame : s'.deployments = s.deployments → Option.Rel (fun c c' =>
      c' = c ∨ ∃ name value, name ∈ deliveredNames reqs ls [.own i e] k ∧
        EnvEdit name value c.env c'.env)
      (containerAt s k j) (containerAt s' k j) :=
    fun h => containers_same (fun _ => .inl rfl) h k j
  rcases StaleStep.cases hstep with ⟨_, rfl⟩ | hkube
  · exact hsame rfl
  · obtain ⟨c, r⟩ := e
    by_cases hc : ∀ d, c ≠ .updateDeployment d
    · exact hsame (deployments_of_kubeStep hkube hc)
    · obtain ⟨new, hnew⟩ := not_forall.mp hc
      obtain rfl := not_not.mp hnew
      cases r with
      | error err => exact hsame (by rw [hkube.of_error])
      | ok r =>
          obtain ⟨f, delivery, selector, ds, d, hf, hds, hd, hdel, _, rfl⟩ :=
            hcall
          obtain ⟨hpast, _⟩ :=
            listDeployments_past hrun (mem_proj.mp hds) d hd
          obtain ⟨old, hold, hv, hs⟩ := kubeStep_updateDeployment hkube
          rw [metadata_injected] at hold hv
          have heq : old = d := VTable.eq_of_version hpast hold hv
          subst heq
          rcases hs with ⟨_, rfl⟩ | rfl
          · exact hsame rfl
          · have hwrite : Option.Rel (fun c c' => c' = c ∨
                k = old.metadata.objectKey ∧ EnvEdit (envVarName f delivery)
                  f.spec.defaultValue c.env c'.env)
                (containerAt s k j) (containerAt { s with
                  deployments := s.deployments.write
                    (injected f.metadata.name (envVarName f delivery)
                      f.spec.defaultValue old) } k j) :=
              containers_write hold k j
            generalize containerAt s k j = x at hwrite ⊢
            generalize containerAt _ k j = y at hwrite ⊢
            cases hwrite with
            | none => exact .none
            | some h =>
                refine .some (h.imp_right ?_)
                rintro ⟨rfl, hedit⟩
                exact ⟨_, _, ⟨_, List.mem_singleton_self _, i, f, delivery,
                  old, r, rfl, rfl, mem_proj.mp hf, hdel, rfl⟩, hedit⟩

/-- In any run of any number of reconciles, among writes of others to anything
but Deployments, between any two states: each container's list has grown by the
names delivered to its Deployment in between. -/
theorem containers_grown {nows : ι → Nat} {reqs : ι → ObjectKey}
    {s₀ m s : Cluster} {pre post : List (SystemLabel ι)}
    (hprogs : Interleaved (fun i => reconcile (nows i) (reqs i)) (pre ++ post))
    (hpre : Run SystemStep s₀ pre m) (hpost : Run SystemStep m post s)
    (hothers : ∀ w, Label.other w ∈ post →
      (∀ d, w ≠ .putDeployment d) ∧ ∀ k, w ≠ .deleteDeployment k)
    (k : ObjectKey) (j : Nat) :
    Option.Rel (fun c c' =>
        Grown (deliveredNames reqs (pre ++ post) post k) c.env c'.env)
      (containerAt m k j) (containerAt s k j) := by
  refine Run.reverse_induction (P := fun post s =>
    Interleaved (fun i => reconcile (nows i) (reqs i)) (pre ++ post) →
    (∀ w, Label.other w ∈ post →
      (∀ d, w ≠ .putDeployment d) ∧ ∀ k, w ≠ .deleteDeployment k) →
    Option.Rel (fun c c' =>
        Grown (deliveredNames reqs (pre ++ post) post k) c.env c'.env)
      (containerAt m k j) (containerAt s k j)) ?_ ?_ hpost hprogs hothers
  · intro _ _
    exact rel_self (fun c => .refl _ c.env) _
  · intro es n l s' hes ih hstep hprogs hothers
    rw [← List.append_assoc] at hprogs
    have hn := ih hprogs.of_append fun w hw =>
      hothers w (List.mem_append_left _ hw)
    have hmono : deliveredNames reqs (pre ++ es) es k ⊆
        deliveredNames reqs (pre ++ (es ++ [l])) (es ++ [l]) k :=
      deliveredNames_mono
        (by rw [← List.append_assoc]; exact List.subset_append_left _ _)
        (List.subset_append_left _ _) k
    cases l with
    | other w =>
        have hs' : s' = w.apply n := hstep
        obtain ⟨hput, hdel⟩ := hothers w
          (List.mem_append_right _ (List.mem_singleton_self _))
        have hsame : Option.Rel (· = ·) (containerAt n k j)
            (containerAt s' k j) :=
          containers_same (fun _ => rfl)
            (hs' ▸ apply_keeps_deployments hput hdel) k j
        refine rel_trans ?_ hn hsame
        rintro a b c hab rfl
        exact hab.mono hmono
    | own i e =>
        have hcall : OperatorCall (nows i) (reqs i) (proj i (pre ++ es))
            e.call :=
          hprogs.call_along (P := fun i => OperatorCall (nows i) (reqs i))
            (reconcile_along (nows i) (reqs i))
        have hrun : Run SystemStep s₀ (pre ++ es) n :=
          run_append.mpr ⟨m, hpre, hes⟩
        refine rel_trans ?_ hn (containers_own hrun hcall hstep k j)
        rintro a b c hab (rfl | ⟨name, value, hname, hedit⟩)
        · exact hab.mono hmono
        · refine (hab.edit hedit).mono (Set.insert_subset ?_ hmono)
          exact deliveredNames_mono
            (by rw [← List.append_assoc]; exact List.subset_append_left _ _)
            (List.subset_append_right _ _) k hname

/-- In any run of any number of reconciles, with stale reads and failing calls,
while others write anything but Deployments: no container ever repeats a name if
none did at first, and from any state of the run to any later one the entries of
a container stay and stay in order, and there are at most as many more as there
are names delivered to its Deployment in between. -/
theorem env_names_unique (nows : ι → Nat) (reqs : ι → ObjectKey)
    {s₀ m s : Cluster} {pre post : List (SystemLabel ι)}
    (hprogs : Interleaved (fun i => reconcile (nows i) (reqs i)) (pre ++ post))
    (hpre : Run SystemStep s₀ pre m) (hpost : Run SystemStep m post s)
    (hothers : ∀ w, Label.other w ∈ pre ++ post →
      (∀ d, w ≠ .putDeployment d) ∧ ∀ k, w ≠ .deleteDeployment k)
    (hinit : ∀ d ∈ s₀.deployments.rows.items, ∀ c ∈ d.template.containers,
      (c.env.map EnvVar.name).Nodup) :
    ∀ k j, Option.Rel (fun c c' =>
        (c'.env.map EnvVar.name).Nodup ∧
        c.env.map slot <+: c'.env.map slot ∧
        (c'.env.length : ℕ∞) ≤
          c.env.length + (deliveredNames reqs (pre ++ post) post k).encard)
      (containerAt m k j) (containerAt s k j) := by
  intro k j
  have hfirst := containers_grown hprogs.of_append .nil hpre
    (fun w hw => hothers w (List.mem_append_left _ hw)) k j
  have hthen := containers_grown hprogs hpre hpost
    (fun w hw => hothers w (List.mem_append_right _ hw)) k j
  have hk : ∀ c, containerAt s₀ k j = some c →
      (c.env.map EnvVar.name).Nodup := fun c hc => by
    obtain ⟨d, hd, hc⟩ := mem_of_containerAt hc
    exact hinit d hd c hc
  generalize containerAt s₀ k j = x at hfirst hk
  generalize containerAt m k j = y at hfirst hthen ⊢
  generalize containerAt s k j = z at hthen ⊢
  cases hthen with
  | none => exact .none
  | some hbc =>
      cases hfirst with
      | some hab =>
          refine .some ⟨?_, hbc.prefix, hbc.length_le⟩
          exact hbc.nodup (hab.nodup (hk _ rfl))

end

/-! Two flags of one variable, reconciled in turns. The second update comes from
a list that the first has changed, and is refused. -/

def modeFlag (name value : String) : FeatureFlag where
  metadata := { name := name, ns := "default", generation := 1 }
  spec := {
    type := .string
    defaultValue := value
    delivery := some { envVar := some {
      name := "MODE"
      selector := some (sampleSelector "web") } } }

def modeReq (light : Bool) : ObjectKey :=
  ⟨"default", if light then "light" else "dark"⟩

def modeCluster : Cluster where
  flags := (VTable.empty.write (modeFlag "dark" "night")).write
    (modeFlag "light" "day")
  deployments := VTable.empty.write
    (sampleDeployment "web" "web" [{ name := "PORT", value := "80" }])

def modeRun : List (SystemLabel Bool) ×
    (Bool → OpProg (Except String Result)) × Cluster :=
  letI := labelSelectors
  schedule (fun (_ : Unit) => KubeCall.serve)
    ([false, true, false, true, false, true, false, true].map (·, ()))
    (fun i => reconcile 7 (modeReq i)) modeCluster

theorem env_names_unique_sample :
    ∃ c, containerAt modeRun.2.2 ⟨"default", "web"⟩ 0 = some c ∧
      (c.env.map EnvVar.name).Nodup ∧
      [slot { name := "PORT", value := "80" }] <+: c.env.map slot := by
  let := labelSelectors
  have hprogs : Interleaved (fun i => reconcile 7 (modeReq i))
      ([] ++ modeRun.1) := schedule_interleaved rfl
  have hrun : Run SystemStep modeCluster modeRun.1 modeRun.2.2 :=
    schedule_run (fun _ _ _ _ _ hstep => (CleanStep.kubeStep hstep).stale) rfl
  have h := env_names_unique (fun _ => 7) modeReq hprogs .nil hrun
    (fun w hw => absurd hw (other_not_mem_schedule _ _ _ _ w)) (by decide)
    ⟨"default", "web"⟩ 0
  rw [show containerAt modeCluster ⟨"default", "web"⟩ 0 = some
    { name := "main", env := [{ name := "PORT", value := "80" }] } by decide]
    at h
  generalize containerAt modeRun.2.2 ⟨"default", "web"⟩ 0 = x at h
  cases h with
  | some h => exact ⟨_, rfl, h.1, h.2.1⟩

example : (containerAt modeRun.2.2 ⟨"default", "web"⟩ 0).map (·.env) =
    some [{ name := "PORT", value := "80" },
      { name := "MODE", value := "night" }] := by decide

end Vexil.Operator
