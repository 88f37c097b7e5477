import Mathlib.Data.List.Induction
import Mathlib.Logic.Function.Basic
import Vexil.Lib.Prog

/-!
# Runs of a labelled step relation, and programs interleaved in them

A system is a relation `T s e s'`: in state `s` the event `e` can happen and
leave `s'`. A `Run` is a list of events that happen one after another. Two
directions of induction are wanted and both are here: forward, by the
constructors, and backward over the last event (`Run.reverse_induction`), which
is the one that invariants about the past use.

A condition on steps is just a smaller relation. "Every run whose steps all
meet `C`" is a run of `T.where C`, and everything proved about runs applies to
it unchanged.

The second half puts programs into runs. A label is either one call made by a
numbered program, or something the rest of the world did. `Interleaved` says
that for every program the events it made form a path of it: that is all that
is left of a scheduler, and it allows every schedule.
-/

namespace Vexil.Lib

universe u v w x y z

section
variable {σ : Type u} {ε : Type v}

/-- The events happen in order, from the first state to the second. -/
inductive Run (T : σ → ε → σ → Prop) : σ → List ε → σ → Prop
  | nil {s : σ} : Run T s [] s
  | cons {s m s' : σ} {e : ε} {es : List ε} :
      T s e m → Run T m es s' → Run T s (e :: es) s'

/-- The steps of `T` that meet a condition on the state before them. -/
def Restrict (T : σ → ε → σ → Prop) (C : σ → ε → Prop) (s : σ) (e : ε)
    (s' : σ) : Prop := T s e s' ∧ C s e

variable {T T' : σ → ε → σ → Prop}

theorem run_nil {s s' : σ} : Run T s [] s' ↔ s = s' := by
  constructor
  · intro h
    cases h
    rfl
  · rintro rfl
    exact .nil

theorem run_cons {s s' : σ} {e : ε} {es : List ε} :
    Run T s (e :: es) s' ↔ ∃ m, T s e m ∧ Run T m es s' := by
  constructor
  · intro h
    cases h with
    | cons h₁ h₂ => exact ⟨_, h₁, h₂⟩
  · rintro ⟨m, h₁, h₂⟩
    exact .cons h₁ h₂

theorem run_append {s s' : σ} {es es' : List ε} :
    Run T s (es ++ es') s' ↔ ∃ m, Run T s es m ∧ Run T m es' s' := by
  induction es generalizing s with
  | nil => simp [run_nil]
  | cons e es ih =>
      simp only [List.cons_append, run_cons, ih]
      constructor
      · rintro ⟨a, ha, m, hm, h⟩
        exact ⟨m, ⟨a, ha, hm⟩, h⟩
      · rintro ⟨m, ⟨a, ha, hm⟩, h⟩
        exact ⟨a, ha, m, hm, h⟩

theorem run_snoc {s s' : σ} {e : ε} {es : List ε} :
    Run T s (es ++ [e]) s' ↔ ∃ m, Run T s es m ∧ T m e s' := by
  simp [run_append, run_cons, run_nil]

/-- A run, cut at one of its events. -/
theorem Run.at_event {s s' : σ} {pre post : List ε} {e : ε}
    (h : Run T s (pre ++ e :: post) s') :
    ∃ m m', Run T s pre m ∧ T m e m' ∧ Run T m' post s' := by
  obtain ⟨m, hpre, h⟩ := run_append.mp h
  obtain ⟨m', he, hpost⟩ := run_cons.mp h
  exact ⟨m, m', hpre, he, hpost⟩

theorem Run.mono (hT : ∀ s e s', T s e s' → T' s e s') {s s' : σ}
    {es : List ε} (h : Run T s es s') : Run T' s es s' := by
  induction h with
  | nil => exact .nil
  | cons h₁ _ ih => exact .cons (hT _ _ _ h₁) ih

/-- When no step has two outcomes, no run has. -/
theorem Run.unique (hT : ∀ s e s₁ s₂, T s e s₁ → T s e s₂ → s₁ = s₂)
    {s s₁ s₂ : σ} {es : List ε} (h₁ : Run T s es s₁) (h₂ : Run T s es s₂) :
    s₁ = s₂ := by
  induction h₁ with
  | nil => exact run_nil.mp h₂
  | cons hstep _ ih =>
      obtain ⟨m, hstep', hrest⟩ := run_cons.mp h₂
      obtain rfl := hT _ _ _ _ hstep hstep'
      exact ih hrest

/-- A run, looked at through a function of the state. -/
theorem Run.map_state {τ : Type w} {U : τ → ε → τ → Prop} (f : σ → τ)
    (hT : ∀ s e s', T s e s' → U (f s) e (f s')) {s s' : σ} {es : List ε}
    (h : Run T s es s') : Run U (f s) es (f s') := by
  induction h with
  | nil => exact .nil
  | cons h₁ _ ih => exact .cons (hT _ _ _ h₁) ih

theorem Run.unrestrict {C : σ → ε → Prop} {s s' : σ} {es : List ε}
    (h : Run (Restrict T C) s es s') : Run T s es s' :=
  h.mono fun _ _ _ hstep => hstep.1

/-- Take steps in order with a function that says what each does, if it can be
taken. -/
def steps (next : σ → ε → Option σ) : List ε → σ → Option σ
  | [], s => some s
  | e :: es, s => (next s e).bind (steps next es)

/-- A run is found by computing it. -/
theorem run_of_steps {next : σ → ε → Option σ}
    (hT : ∀ s e s', next s e = some s' → T s e s') {es : List ε} {s s' : σ}
    (h : steps next es s = some s') : Run T s es s' := by
  induction es generalizing s with
  | nil =>
      cases h
      exact .nil
  | cons e es ih =>
      obtain ⟨m, hm, hs'⟩ := Option.bind_eq_some_iff.mp h
      exact .cons (hT s e m hm) (ih hs')

/-- Take only steps that meet a condition. -/
def nextWhere (C : σ → ε → Prop) [∀ s e, Decidable (C s e)]
    (next : σ → ε → Option σ) (s : σ) (e : ε) : Option σ :=
  if C s e then next s e else none

theorem run_of_stepsWhere {C : σ → ε → Prop} [∀ s e, Decidable (C s e)]
    {next : σ → ε → Option σ} (hT : ∀ s e s', next s e = some s' → T s e s')
    {es : List ε} {s s' : σ} (h : steps (nextWhere C next) es s = some s') :
    Run (Restrict T C) s es s' := by
  refine run_of_steps (fun m e m' hm => ?_) h
  unfold nextWhere at hm
  split at hm
  · next hc => exact ⟨hT m e m' hm, hc⟩
  · cases hm

/-- What each event of a run keeps, the run keeps. -/
theorem Run.keeps {τ : Type w} {f : σ → τ} {s s' : σ} {es : List ε}
    (h : Run T s es s')
    (hf : ∀ e ∈ es, ∀ s s', T s e s' → f s' = f s) : f s' = f s := by
  induction h with
  | nil => rfl
  | cons hstep _ ih =>
      have hrest := ih fun e he => hf e (.tail _ he)
      rw [hrest, hf _ List.mem_cons_self _ _ hstep]

/-- The steps of `T` into a state with a property. -/
def Into (T : σ → ε → σ → Prop) (I : σ → Prop) (s : σ) (e : ε) (s' : σ) :
    Prop := T s e s' ∧ I s'

/-- A condition on steps that says exactly which of them keep a property: the
runs of such steps are the runs that never lose it. -/
theorem run_restrict_iff_into {C : σ → ε → Prop} {I : σ → Prop}
    (hC : ∀ s e s', I s → T s e s' → (C s e ↔ I s')) {s s' : σ} {es : List ε}
    (hs : I s) : Run (Restrict T C) s es s' ↔ Run (Into T I) s es s' := by
  induction es generalizing s with
  | nil => rw [run_nil, run_nil]
  | cons e es ih =>
      rw [run_cons, run_cons]
      constructor
      · rintro ⟨m, ⟨hstep, hc⟩, hrest⟩
        have hm : I m := (hC s e m hs hstep).mp hc
        exact ⟨m, ⟨hstep, hm⟩, (ih hm).mp hrest⟩
      · rintro ⟨m, ⟨hstep, hm⟩, hrest⟩
        exact ⟨m, ⟨hstep, (hC s e m hs hstep).mpr hm⟩, (ih hm).mpr hrest⟩

/-- Induction over the last event of a run from `s`. -/
theorem Run.reverse_induction {s : σ} {P : List ε → σ → Prop} (nil : P [] s)
    (snoc : ∀ es m e s', Run T s es m → P es m → T m e s' → P (es ++ [e]) s')
    {es : List ε} {s' : σ} (h : Run T s es s') : P es s' := by
  induction es using List.reverseRecOn generalizing s' with
  | nil => rw [run_nil] at h; subst h; exact nil
  | append_singleton es e ih =>
      obtain ⟨m, hm, he⟩ := run_snoc.mp h
      exact snoc es m e s' hm (ih hm) he

/-- The invariant rule. -/
theorem Run.invariant {I : σ → Prop} (step : ∀ s e s', I s → T s e s' → I s')
    {s s' : σ} {es : List ε} (h : Run T s es s') (hs : I s) : I s' := by
  induction h with
  | nil => exact hs
  | cons h₁ _ ih => exact ih (step _ _ _ hs h₁)

end

/-! ## A state that answers calls -/

section
variable {C : Type u} {R : C → Type v} {σ : Type y} {α : Type w}

/-- The step relation of a state that answers each call in one way. -/
def Answers (serve : (c : C) → σ → R c × σ) (s : σ) (e : Event C R)
    (s' : σ) : Prop := serve e.call s = (e.reply, s')

theorem Prog.exec_run (serve : (c : C) → σ → R c × σ) (p : Prog C R α)
    (s : σ) : Run (Answers serve) s (p.exec serve s).1 (p.exec serve s).2.2 := by
  induction p generalizing s with
  | ret a => exact .nil
  | call c k ih => exact .cons rfl (ih _ _)

/-- One program, run from start to end with nothing in between. -/
def Completes (T : σ → Event C R → σ → Prop) (p : Prog C R α) (s : σ)
    (tr : List (Event C R)) (a : α) (s' : σ) : Prop :=
  Prog.Path p tr (.ret a) ∧ Run T s tr s'

variable {T : σ → Event C R → σ → Prop}

theorem completes_ret {a b : α} {s s' : σ} {tr : List (Event C R)} :
    Completes T (.ret a) s tr b s' ↔ tr = [] ∧ b = a ∧ s' = s := by
  constructor
  · rintro ⟨hp, hr⟩
    obtain ⟨rfl, hb⟩ := Prog.path_ret.mp hp
    rw [run_nil] at hr
    cases hb
    exact ⟨rfl, rfl, hr.symm⟩
  · rintro ⟨rfl, rfl, rfl⟩
    exact ⟨.nil, .nil⟩

theorem completes_call {c : C} {k : R c → Prog C R α} {b : α} {s s' : σ}
    {tr : List (Event C R)} : Completes T (.call c k) s tr b s' ↔
      ∃ r tr' m, tr = ⟨c, r⟩ :: tr' ∧ T s ⟨c, r⟩ m ∧
        Completes T (k r) m tr' b s' := by
  constructor
  · rintro ⟨hp, hr⟩
    obtain ⟨r, tr', rfl, hp'⟩ := Prog.path_call_ret.mp hp
    obtain ⟨m, hm, hr'⟩ := run_cons.mp hr
    exact ⟨r, tr', m, rfl, hm, hp', hr'⟩
  · rintro ⟨r, tr', m, rfl, hm, hp', hr'⟩
    exact ⟨.cons hp', .cons hm hr'⟩

theorem completes_bind {β : Type w} {p : Prog C R α} {f : α → Prog C R β}
    {b : β} {s s' : σ} {tr : List (Event C R)}
    (h : Completes T (p.bind f) s tr b s') :
    ∃ a tr₁ tr₂ m, tr = tr₁ ++ tr₂ ∧ Completes T p s tr₁ a m ∧
      Completes T (f a) m tr₂ b s' := by
  obtain ⟨hp, hr⟩ := h
  obtain ⟨a, tr₁, tr₂, rfl, h₁, h₂⟩ := Prog.path_bind_ret hp
  obtain ⟨m, hm, hr'⟩ := run_append.mp hr
  exact ⟨a, tr₁, tr₂, m, rfl, ⟨h₁, hm⟩, h₂, hr'⟩

theorem completes_map {β : Type w} {p : Prog C R α} {f : α → β} {b : β}
    {s s' : σ} {tr : List (Event C R)}
    (h : Completes T (p.map f) s tr b s') :
    ∃ a, Completes T p s tr a s' ∧ b = f a := by
  obtain ⟨a, tr, _, m, rfl, hp, hret⟩ := completes_bind h
  obtain ⟨rfl, rfl, rfl⟩ := completes_ret.mp hret
  rw [List.append_nil]
  exact ⟨a, hp, rfl⟩

theorem Completes.mono {T' : σ → Event C R → σ → Prop}
    (hT : ∀ s e s', T s e s' → T' s e s') {p : Prog C R α} {s s' : σ}
    {tr : List (Event C R)} {a : α} (h : Completes T p s tr a s') :
    Completes T' p s tr a s' := ⟨h.1, h.2.mono hT⟩

theorem Prog.exec_completes (serve : (c : C) → σ → R c × σ) (p : Prog C R α)
    (s : σ) : Completes (Answers serve) p s (p.exec serve s).1
      (p.exec serve s).2.1 (p.exec serve s).2.2 :=
  ⟨p.exec_path serve s, p.exec_run serve s⟩

theorem Prog.completes_of_exec {serve : (c : C) → σ → R c × σ}
    {p : Prog C R α} {s : σ} {r : List (Event C R) × α × σ}
    (h : p.exec serve s = r) :
    Completes (Answers serve) p s r.1 r.2.1 r.2.2 := by
  subst h
  exact p.exec_completes serve s

end

/-! ## Interleaving -/

/-- What happened: a call of program `i`, or a move of the rest of the world. -/
inductive Label (ι : Type u) (C : Type v) (R : C → Type w) (ε : Type x) where
  | own (i : ι) (e : Event C R)
  | other (x : ε)

section
variable {ι : Type u} {C : Type v} {R : C → Type w} {ε : Type x} {α : Type y}
variable [DecidableEq ι]

/-- The events that are program `i`'s own, in order. -/
def proj (i : ι) : List (Label ι C R ε) → List (Event C R)
  | [] => []
  | .own j e :: ls => if j = i then e :: proj i ls else proj i ls
  | .other _ :: ls => proj i ls

@[simp] theorem proj_nil (i : ι) :
    proj i ([] : List (Label ι C R ε)) = [] := rfl

theorem proj_append (i : ι) (ls ls' : List (Label ι C R ε)) :
    proj i (ls ++ ls') = proj i ls ++ proj i ls' := by
  induction ls with
  | nil => rfl
  | cons l ls ih =>
      cases l with
      | own j e =>
          simp only [List.cons_append, proj]
          split <;> simp [ih]
      | other x => simpa [proj] using ih

@[simp] theorem proj_own_self (i : ι) (e : Event C R)
    (ls : List (Label ι C R ε)) : proj i (.own i e :: ls) = e :: proj i ls := by
  simp [proj]

theorem proj_own_ne {i j : ι} (h : j ≠ i) (e : Event C R)
    (ls : List (Label ι C R ε)) : proj i (.own j e :: ls) = proj i ls := by
  simp [proj, h]

@[simp] theorem proj_other (i : ι) (x : ε) (ls : List (Label ι C R ε)) :
    proj i (.other x :: ls) = proj i ls := rfl

theorem proj_snoc (i j : ι) (e : Event C R) (ls : List (Label ι C R ε)) :
    proj j (ls ++ [.own i e]) = proj j ls ++ if i = j then [e] else [] := by
  rw [proj_append]
  congr 1

theorem mem_proj {i : ι} {e : Event C R} {ls : List (Label ι C R ε)} :
    e ∈ proj i ls ↔ Label.own i e ∈ ls := by
  induction ls with
  | nil => simp
  | cons l ls ih =>
      cases l with
      | own j e' =>
          by_cases h : j = i
          · subst h; simp [ih]
          · rw [proj_own_ne h, ih, List.mem_cons, Label.own.injEq]
            exact ⟨.inr, fun h' => h'.resolve_left fun h'' => h h''.1.symm⟩
      | other x => simp [ih]

/-- Every program takes part by following one of its paths. -/
def Interleaved (progs : ι → Prog C R α) (ls : List (Label ι C R ε)) : Prop :=
  ∀ i, ∃ q, Prog.Path (progs i) (proj i ls) q

/-- Program `i` has run to its end and returned `a`. -/
def Answered (progs : ι → Prog C R α) (i : ι) (ls : List (Label ι C R ε))
    (a : α) : Prop := Prog.Path (progs i) (proj i ls) (.ret a)

variable {progs : ι → Prog C R α}

theorem Interleaved.of_append {ls ls' : List (Label ι C R ε)}
    (h : Interleaved progs (ls ++ ls')) : Interleaved progs ls := by
  intro i
  obtain ⟨q, hq⟩ := h i
  rw [proj_append] at hq
  obtain ⟨m, hm, _⟩ := hq.prefix_of_append
  exact ⟨m, hm⟩

/-- Facts along the code become facts about the run: an event of program `i`
satisfies what holds along `progs i`, with `i`'s own past as its history. -/
theorem Interleaved.call_along {P : ι → List (Event C R) → C → Prop}
    {pre post : List (Label ι C R ε)} {i : ι} {e : Event C R}
    (h : Interleaved progs (pre ++ .own i e :: post))
    (hP : Prog.Along (P i) [] (progs i)) : P i (proj i pre) e.call := by
  obtain ⟨q, hq⟩ := h i
  rw [proj_append, proj_own_self] at hq
  exact hq.call_along hP

/-- The events of one program, labelled as its own. -/
def ownAll (i : ι) (tr : List (Event C R)) : List (Label ι C R ε) :=
  tr.map fun e => .own i e

theorem proj_ownAll (i j : ι) (tr : List (Event C R)) :
    proj j (ownAll i tr : List (Label ι C R ε)) = if i = j then tr else [] := by
  induction tr with
  | nil => simp [ownAll]
  | cons e tr ih =>
      simp only [ownAll, List.map_cons, proj] at ih ⊢
      rw [ih]
      split <;> rfl

omit [DecidableEq ι] in
theorem ownAll_append (i : ι) (tr tr' : List (Event C R)) :
    (ownAll i (tr ++ tr') : List (Label ι C R ε)) =
      ownAll i tr ++ ownAll i tr' := List.map_append

omit [DecidableEq ι] in
/-- A program that runs with nothing in between is a run of the system. -/
theorem Run.ownAll {σ : Type z} {T : σ → Event C R → σ → Prop}
    {U : σ → Label ι C R ε → σ → Prop} {i : ι}
    (hT : ∀ s e s', T s e s' → U s (.own i e) s') {s s' : σ}
    {tr : List (Event C R)} (h : Run T s tr s') : Run U s (ownAll i tr) s' := by
  induction h with
  | nil => exact .nil
  | cons h₁ _ ih => exact .cons (hT _ _ _ h₁) ih

/-- One program alone. -/
theorem interleaved_single {p q : Prog C R α} {tr : List (Event C R)}
    (h : Prog.Path p tr q) :
    Interleaved (fun _ : Unit => p)
      (Vexil.Lib.ownAll () tr : List (Label Unit C R ε)) := by
  intro i
  refine ⟨q, ?_⟩
  rw [proj_ownAll, if_pos rfl]
  exact h

/-- An event of a program that runs alone, in its place in the run. -/
theorem Prog.exec_event {σ : Type z} (serve : (c : C) → σ → R c × σ)
    (p : Prog C R α) (s : σ) {n : Nat} (hn : n < (p.exec serve s).1.length) :
    ∃ e m m', (p.exec serve s).1[n]? = some e ∧
      Interleaved (fun _ : Unit => p)
        (Vexil.Lib.ownAll () ((p.exec serve s).1.take n) ++
          (.own () e : Label Unit C R ε) ::
            Vexil.Lib.ownAll () ((p.exec serve s).1.drop (n + 1))) ∧
      Run (Answers serve) s ((p.exec serve s).1.take n) m ∧
      Answers serve m e m' := by
  have hprogs := interleaved_single (ε := ε) (p.exec_path serve s)
  have hrun := p.exec_run serve s
  generalize (p.exec serve s).1 = tr at hn hprogs hrun ⊢
  have hsplit : tr = tr.take n ++ tr[n] :: tr.drop (n + 1) := by
    rw [← List.drop_eq_getElem_cons hn, List.take_append_drop]
  rw [hsplit] at hprogs hrun
  rw [ownAll_append] at hprogs
  obtain ⟨m, m', hpre, hstep, _⟩ := hrun.at_event
  exact ⟨tr[n], m, m', List.getElem?_eq_getElem hn, hprogs, hpre, hstep⟩

/-! ## A schedule

Programs are run one call at a time, in the order in which a list names them,
each call answered as the list says. A name whose program has ended is passed
over. -/

variable {σ : Type z} {ω : Type z}

def schedule (serve : ω → (c : C) → σ → R c × σ) :
    List (ι × ω) → (ι → Prog C R α) → σ →
      List (Label ι C R ε) × (ι → Prog C R α) × σ
  | [], progs, s => ([], progs, s)
  | (i, o) :: is, progs, s =>
      match progs i with
      | .ret _ => schedule serve is progs s
      | .call c k =>
          let r := serve o c s
          let rest := schedule serve is (Function.update progs i (k r.1)) r.2
          (.own i ⟨c, r.1⟩ :: rest.1, rest.2)

theorem schedule_path (serve : ω → (c : C) → σ → R c × σ)
    (is : List (ι × ω)) (progs : ι → Prog C R α) (s : σ) (j : ι) :
    Prog.Path (progs j) (proj j (schedule (ε := ε) serve is progs s).1)
      ((schedule (ε := ε) serve is progs s).2.1 j) := by
  induction is generalizing progs s with
  | nil => exact .nil
  | cons i is ih =>
      obtain ⟨i, o⟩ := i
      rw [schedule]
      split
      · exact ih progs s
      · next c k hprog =>
          have h := ih (Function.update progs i (k (serve o c s).1))
            (serve o c s).2
          by_cases hj : i = j
          · subst hj
            rw [Function.update_self] at h
            rw [proj_own_self, hprog]
            exact .cons h
          · rw [Function.update_of_ne (Ne.symm hj)] at h
            rw [proj_own_ne hj]
            exact h

/-- A schedule leaves nothing to the rest of the world. -/
theorem other_not_mem_schedule (serve : ω → (c : C) → σ → R c × σ)
    (is : List (ι × ω)) (progs : ι → Prog C R α) (s : σ) (x : ε) :
    Label.other x ∉ (schedule serve is progs s).1 := by
  induction is generalizing progs s with
  | nil => exact List.not_mem_nil
  | cons i is ih =>
      obtain ⟨i, o⟩ := i
      rw [schedule]
      split
      · exact ih progs s
      · rw [List.mem_cons, not_or]
        exact ⟨(fun h => nomatch h), ih _ _⟩

theorem schedule_interleaved {serve : ω → (c : C) → σ → R c × σ}
    {is : List (ι × ω)} {s : σ}
    {r : List (Label ι C R ε) × (ι → Prog C R α) × σ}
    (hr : schedule serve is progs s = r) : Interleaved progs r.1 := by
  intro j
  subst hr
  exact ⟨_, schedule_path serve is progs s j⟩

theorem schedule_run {U : σ → Label ι C R ε → σ → Prop}
    {serve : ω → (c : C) → σ → R c × σ}
    (hU : ∀ o s i e s', Answers (serve o) s e s' → U s (.own i e) s')
    {is : List (ι × ω)} {s : σ}
    {r : List (Label ι C R ε) × (ι → Prog C R α) × σ}
    (hr : schedule serve is progs s = r) : Run U s r.1 r.2.2 := by
  subst hr
  induction is generalizing progs s with
  | nil => exact .nil
  | cons i is ih =>
      rw [schedule]
      split
      · exact ih
      · exact .cons (hU _ _ _ _ _ rfl) ih

/-- Every step of a schedule meets a condition: found out by running it. -/
def scheduleMeets (cond : σ → Label ι C R ε → Bool)
    (serve : ω → (c : C) → σ → R c × σ) :
    List (ι × ω) → (ι → Prog C R α) → σ → Bool
  | [], _, _ => true
  | (i, o) :: is, progs, s =>
      match progs i with
      | .ret _ => scheduleMeets cond serve is progs s
      | .call c k =>
          let r := serve o c s
          cond s (.own i ⟨c, r.1⟩) &&
            scheduleMeets cond serve is (Function.update progs i (k r.1)) r.2

theorem schedule_run_restrict {U : σ → Label ι C R ε → σ → Prop}
    {cond : σ → Label ι C R ε → Bool} {serve : ω → (c : C) → σ → R c × σ}
    (hU : ∀ o s i e s', Answers (serve o) s e s' → U s (.own i e) s')
    {is : List (ι × ω)} {s : σ}
    {r : List (Label ι C R ε) × (ι → Prog C R α) × σ}
    (hmeets : scheduleMeets cond serve is progs s = true)
    (hr : schedule serve is progs s = r) :
    Run (Restrict U fun s l => cond s l = true) s r.1 r.2.2 := by
  subst hr
  induction is generalizing progs s with
  | nil => exact .nil
  | cons i is ih =>
      rw [scheduleMeets] at hmeets
      rw [schedule]
      split at hmeets
      · exact ih hmeets
      · rw [Bool.and_eq_true] at hmeets
        exact .cons ⟨hU _ _ _ _ _ rfl, hmeets.1⟩ (ih hmeets.2)

end

end Vexil.Lib
