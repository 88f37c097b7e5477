import Mathlib.Data.List.Induction

/-!
# Machines that answer, side by side

A machine takes an input, gives an output and goes on in its next state. Two
machines with the same inputs and outputs are compared along a relation between
their states. An input either is answered alike and keeps the relation, or it is
not answered alike, and which of the two it is can be told beforehand. So they
answer a whole list alike exactly when they do so at each of its inputs.
-/

namespace Vexil.Lib

universe u v w x

section
variable {σ : Type u} {τ : Type v} {ι : Type w} {ο : Type x}

/-- The outputs, one for each input. -/
def outputs (step : σ → ι → ο × σ) : σ → List ι → List ο
  | _, [] => []
  | s, i :: is => (step s i).1 :: outputs step (step s i).2 is

/-- The state that a list of inputs leads to. -/
def stateAfter (step : σ → ι → ο × σ) (s : σ) (is : List ι) : σ :=
  is.foldl (fun s i => (step s i).2) s

/-- Every input comes when the state meets the condition for it. -/
def Always (step : σ → ι → ο × σ) (ok : σ → ι → Prop) (s : σ)
    (is : List ι) : Prop :=
  ∀ pre i post, is = pre ++ i :: post → ok (stateAfter step s pre) i

variable {step : σ → ι → ο × σ} {step' : τ → ι → ο × τ}

theorem always_cons {ok : σ → ι → Prop} {s : σ} {i : ι} {is : List ι} :
    Always step ok s (i :: is) ↔ ok s i ∧ Always step ok (step s i).2 is := by
  constructor
  · intro h
    refine ⟨h [] i is rfl, fun pre j post heq => ?_⟩
    exact h (i :: pre) j post (by rw [heq]; rfl)
  · rintro ⟨hi, his⟩ pre j post heq
    cases pre with
    | nil =>
        cases heq
        exact hi
    | cons k pre =>
        cases heq
        exact his pre j post rfl

/-- Machines in related states answer alike as long as `ok` holds, and not
longer. -/
theorem outputs_eq_iff {R : σ → τ → Prop} {ok : σ → ι → Prop}
    (hstep : ∀ s t i, R s t → ok s i → R (step s i).2 (step' t i).2)
    (hout : ∀ s t i, R s t → ((step s i).1 = (step' t i).1 ↔ ok s i))
    {s : σ} {t : τ} (h : R s t) (is : List ι) :
    outputs step s is = outputs step' t is ↔ Always step ok s is := by
  induction is generalizing s t with
  | nil =>
      refine iff_of_true rfl fun pre i post heq => ?_
      simp at heq
  | cons i is ih =>
      rw [outputs, outputs, List.cons.injEq, hout s t i h, always_cons]
      exact and_congr_right fun hok => ih (hstep s t i h hok)

end

end Vexil.Lib
