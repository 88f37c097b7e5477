import Mathlib.Data.List.Basic

/-!
# Who wrote last

A place that several writers share, seen from outside. Each step of the system
may ask for a value there; an asking step writes that value or, as long as it is
not known to have landed, leaves what it found; any other step leaves it alone.
`Place.last_write` is the register that follows: after a run one reads what the
place held at the start, or the value of one asking step, and no asking step
that landed comes later than the one that is read.
-/

namespace Vexil.Lib

universe u v w

/-- What is read at a place, the values the steps ask for there, and the steps
that are known to have written. -/
structure Place (σ : Type u) (ε : Type v) (α : Type w) where
  step : ε → σ → σ
  read : σ → α
  asks : σ → ε → α → Prop
  landed : σ → ε → Prop

namespace Place

variable {σ : Type u} {ε : Type v} {α : Type w} (p : Place σ ε α)

structure Obeys : Prop where
  quiet : ∀ s e, (∀ a, ¬ p.asks s e a) → p.read (p.step e s) = p.read s
  asked : ∀ s e a, p.asks s e a → p.read (p.step e s) = a ∨
    p.read (p.step e s) = p.read s ∧ ¬ p.landed s e

def play (es : List ε) (s : σ) : σ := es.foldl (fun s e => p.step e s) s

/-- Some step of the run asked for a value and landed. -/
def Overwritten (es : List ε) (s : σ) : Prop :=
  ∃ before e after a, es = before ++ e :: after ∧
    p.asks (p.play before s) e a ∧ p.landed (p.play before s) e

theorem not_overwritten_nil (s : σ) : ¬ p.Overwritten [] s := by
  intro h
  obtain ⟨before, e, after, _, heq, _⟩ := h
  cases before with
  | nil => cases heq
  | cons x xs => cases heq

theorem overwritten_cons {e : ε} {es : List ε} {s : σ}
    (h : p.Overwritten (e :: es) s) :
    (∃ a, p.asks s e a ∧ p.landed s e) ∨ p.Overwritten es (p.step e s) := by
  obtain ⟨before, x, after, a, heq, ha, hl⟩ := h
  cases before with
  | nil =>
      cases heq
      exact .inl ⟨a, ha, hl⟩
  | cons y ys =>
      cases heq
      exact .inr ⟨ys, x, after, a, rfl, ha, hl⟩

/-- The register. -/
theorem last_write (h : p.Obeys) (es : List ε) (s : σ) :
    p.read (p.play es s) = p.read s ∧ ¬ p.Overwritten es s ∨
    ∃ before e after a, es = before ++ e :: after ∧
      p.asks (p.play before s) e a ∧ p.read (p.play es s) = a ∧
      ¬ p.Overwritten after (p.step e (p.play before s)) := by
  induction es generalizing s with
  | nil => exact .inl ⟨rfl, p.not_overwritten_nil s⟩
  | cons e es ih =>
      rcases ih (p.step e s) with
        ⟨hread, hno⟩ | ⟨before, x, after, a, heq, ha, hread, hno⟩
      · -- the value is the one that `e` left behind
        by_cases hask : ∃ a, p.asks s e a
        · obtain ⟨a, ha⟩ := hask
          rcases h.asked s e a ha with hwritten | ⟨hkept, hlost⟩
          · exact .inr ⟨[], e, es, a, rfl, ha, hread.trans hwritten, hno⟩
          · refine .inl ⟨hread.trans hkept, fun hover => ?_⟩
            rcases p.overwritten_cons hover with ⟨_, _, hl⟩ | hlater
            · exact hlost hl
            · exact hno hlater
        · have hquiet := h.quiet s e fun a ha => hask ⟨a, ha⟩
          refine .inl ⟨hread.trans hquiet, fun hover => ?_⟩
          rcases p.overwritten_cons hover with ⟨a, ha, _⟩ | hlater
          · exact hask ⟨a, ha⟩
          · exact hno hlater
      · subst heq
        exact .inr ⟨e :: before, x, after, a, rfl, ha, hread, hno⟩

end Place

end Vexil.Lib
