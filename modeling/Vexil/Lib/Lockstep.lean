import Mathlib.Data.List.Forall2
import Vexil.Lib.Run

/-!
# Programs in lockstep, and systems that simulate each other

Two programs are in lockstep along a relation `S` between replies when they make
the same calls as long as what they were answered is related, and end with
values that are. A program is in lockstep with itself wherever its calls have
replies that `S` does not tell apart from equal ones (`lockstep_self`); what is
left to prove about code is the few calls where it does.

A step simulation between two systems lifts to runs (`Run.simulates`), event by
event. When the events of the two are alike in the sense of `S`, programs in
lockstep that take part in one run take part in the other, and whatever the one
has answered the other has answered with a related value.
-/

namespace Vexil.Lib

universe u v w x y z

section
variable {C : Type u} {R : C → Type v} {α : Type w} {β : Type x}

/-- The same call, with replies that are related. -/
inductive Event.Alike (S : ∀ c, R c → R c → Prop) :
    Event C R → Event C R → Prop
  | mk {c : C} {r r' : R c} (h : S c r r') : Alike S ⟨c, r⟩ ⟨c, r'⟩

namespace Prog

variable {S : ∀ c, R c → R c → Prop} {V : α → β → Prop}

inductive Lockstep (S : ∀ c, R c → R c → Prop) (V : α → β → Prop) :
    Prog C R α → Prog C R β → Prop
  | ret {a : α} {b : β} (h : V a b) : Lockstep S V (.ret a) (.ret b)
  | call {c : C} {k : R c → Prog C R α} {k' : R c → Prog C R β}
      (h : ∀ r r', S c r r' → Lockstep S V (k r) (k' r')) :
      Lockstep S V (.call c k) (.call c k')

theorem Lockstep.bind {α' : Type y} {β' : Type z} {W : α' → β' → Prop}
    {p : Prog C R α} {q : Prog C R β} {f : α → Prog C R α'}
    {g : β → Prog C R β'} (h : Lockstep S V p q)
    (hf : ∀ a b, V a b → Lockstep S W (f a) (g b)) :
    Lockstep S W (p.bind f) (q.bind g) := by
  induction h with
  | ret h => exact hf _ _ h
  | call _ ih => exact .call ih

theorem Lockstep.map {α' : Type y} {β' : Type z} {W : α' → β' → Prop}
    {p : Prog C R α} {q : Prog C R β} {f : α → α'} {g : β → β'}
    (h : Lockstep S V p q) (hf : ∀ a b, V a b → W (f a) (g b)) :
    Lockstep S W (p.map f) (q.map g) :=
  h.bind fun a b hab => .ret (hf a b hab)

/-- The calls whose related replies are equal. -/
def Exact (S : ∀ c, R c → R c → Prop) (c : C) : Prop :=
  ∀ r r', S c r r' → r = r'

/-- A program that makes only such calls cannot tell the difference. -/
theorem lockstep_self {V : α → α → Prop} (hV : ∀ a, V a a) {p : Prog C R α}
    (hp : Calls (Exact S) p) : Lockstep S V p p := by
  induction p with
  | ret a => exact .ret (hV a)
  | call c k ih =>
      obtain ⟨hc, hk⟩ := calls_call.mp hp
      refine .call fun r r' hr => ?_
      obtain rfl := hc r r' hr
      exact ih r (hk r)

/-- What one of two programs in lockstep has done, the other can have done. -/
theorem Lockstep.path {p p' : Prog C R α} {q : Prog C R β}
    {tr tr' : List (Event C R)} (h : Lockstep S V p q) (hpath : Path p tr p')
    (htr : List.Forall₂ (Event.Alike S) tr tr') :
    ∃ q', Path q tr' q' ∧ Lockstep S V p' q' := by
  induction hpath generalizing q tr' with
  | nil =>
      cases htr
      exact ⟨q, .nil, h⟩
  | cons _ ih =>
      cases htr with
      | cons he htr =>
          cases he with
          | mk hr =>
              cases h with
              | call hk =>
                  obtain ⟨q', hq', hlock⟩ := ih (hk _ _ hr) htr
                  exact ⟨q', .cons hq', hlock⟩

theorem Lockstep.path_ret {p : Prog C R α} {q : Prog C R β} {a : α}
    {tr tr' : List (Event C R)} (h : Lockstep S V p q)
    (hpath : Path p tr (.ret a))
    (htr : List.Forall₂ (Event.Alike S) tr tr') :
    ∃ b, Path q tr' (.ret b) ∧ V a b := by
  obtain ⟨q', hq', hlock⟩ := h.path hpath htr
  cases hlock with
  | ret hab => exact ⟨_, hq', hab⟩

end Prog

end

/-! ## Systems -/

section
variable {σ : Type u} {τ : Type v} {ε : Type w} {ε' : Type x}
variable {T : σ → ε → σ → Prop} {U : τ → ε' → τ → Prop}

/-- Each step of `T` has a step of `U` beside it, so each run has a run. -/
theorem Run.simulates {ρ : σ → τ → Prop} {E : ε → ε' → Prop}
    (hstep : ∀ s t e s', ρ s t → T s e s' →
      ∃ e' t', E e e' ∧ U t e' t' ∧ ρ s' t')
    {s s' : σ} {t : τ} {es : List ε} (h : Run T s es s') (hst : ρ s t) :
    ∃ es' t', List.Forall₂ E es es' ∧ Run U t es' t' ∧ ρ s' t' := by
  induction h generalizing t with
  | nil => exact ⟨[], t, .nil, .nil, hst⟩
  | cons hfirst _ ih =>
      obtain ⟨e', m, he, hm, hrel⟩ := hstep _ _ _ _ hst hfirst
      obtain ⟨es', t', hes, hrest, hrel⟩ := ih hrel
      exact ⟨e' :: es', t', .cons he hes, .cons hm hrest, hrel⟩

end

section
variable {ι : Type u} {C : Type v} {R : C → Type w} {ε : Type x}
variable {α : Type y} {β : Type z}

/-- The same program at the same call, or the same move of the world. -/
inductive Label.Alike (S : ∀ c, R c → R c → Prop) :
    Label ι C R ε → Label ι C R ε → Prop
  | own {i : ι} {e e' : Event C R} (h : e.Alike S e') :
      Alike S (.own i e) (.own i e')
  | other {x : ε} : Alike S (.other x) (.other x)

variable [DecidableEq ι] {S : ∀ c, R c → R c → Prop} {V : α → β → Prop}

theorem forall₂_proj {ls ls' : List (Label ι C R ε)}
    (h : List.Forall₂ (Label.Alike S) ls ls') (i : ι) :
    List.Forall₂ (Event.Alike S) (proj i ls) (proj i ls') := by
  induction h with
  | nil => exact .nil
  | cons hl _ ih =>
      cases hl with
      | other => exact ih
      | @own j e e' he =>
          by_cases hj : j = i
          · subst hj
            rw [proj_own_self, proj_own_self]
            exact .cons he ih
          · rw [proj_own_ne hj, proj_own_ne hj]
            exact ih

variable {progs : ι → Prog C R α} {progs' : ι → Prog C R β}
variable {ls ls' : List (Label ι C R ε)}

theorem Interleaved.lockstep (h : Interleaved progs ls)
    (hprogs : ∀ i, (progs i).Lockstep S V (progs' i))
    (hls : List.Forall₂ (Label.Alike S) ls ls') : Interleaved progs' ls' := by
  intro i
  obtain ⟨q, hq⟩ := h i
  obtain ⟨q', hq', _⟩ := (hprogs i).path hq (forall₂_proj hls i)
  exact ⟨q', hq'⟩

theorem Answered.lockstep {i : ι} {a : α} (h : Answered progs i ls a)
    (hprogs : ∀ i, (progs i).Lockstep S V (progs' i))
    (hls : List.Forall₂ (Label.Alike S) ls ls') :
    ∃ b, Answered progs' i ls' b ∧ V a b :=
  (hprogs i).path_ret h (forall₂_proj hls i)

end

end Vexil.Lib
