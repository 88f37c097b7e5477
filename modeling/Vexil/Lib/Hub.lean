import Mathlib.Data.Finset.Erase
import Mathlib.Data.Finset.Insert
import Mathlib.Logic.Function.Basic
import Vexil.Lib.Run

/-!
# A hub with bounded channels

A hub sends each message to all its members. Every member has a channel of its
own; a channel that is full misses the message. A client joins the hub with a
fresh channel, receives from it for as long as it likes, and then leaves the hub
and closes the channel. The last two are two steps, and anything may happen
between them.

Two steps can go wrong: a send to a channel that has been closed, and closing a
channel twice. They are outcomes of their own here, so that it can be proved
that neither happens (`Orderly.no_panic`). The reason is that a client closes
its channel after it has left the hub, and leaves once.

Channels are first in, first out. `fifo` says it for a client at any two
points of a run: what it has received in between, and then what is still in its
channel, is what was in its channel and then a subsequence of what was sent in
between, all of it if the channel was never full when a message came. Everything
else about the contents of a channel is this, read off at the right points.
-/

namespace Vexil.Lib

universe u v

/-- What a step that is tried comes to. -/
inductive Outcome (σ : Type u) where
  | next (s : σ)
  | blocked
  | panic

namespace Hub

/-- Where a client is. -/
inductive Phase where
  | idle | streaming | leaving | gone
  deriving DecidableEq, Repr

/-- The steps of a hub; `recv` and `send` carry their message. -/
inductive Act (κ : Type u) (M : Type v) where
  | join (k : κ)
  | send (m : M)
  | recv (k : κ) (m : M)
  | leave (k : κ)
  | close (k : κ)
  deriving DecidableEq

end Hub

open Hub

/-- The members, and the channel and the phase of each client. -/
structure Hub (κ : Type u) (M : Type v) where
  members : Finset κ
  buffer : κ → List M
  closed : κ → Bool
  phase : κ → Phase

namespace Hub

variable {κ : Type u} {M : Type v}

def empty : Hub κ M where
  members := ∅
  buffer := fun _ => []
  closed := fun _ => false
  phase := fun _ => .idle

/-- A send that does not wait: a full channel misses the message. -/
def offer (cap : Nat) (m : M) (buffer : List M) : List M :=
  if buffer.length < cap then buffer ++ [m] else buffer

theorem offer_of_lt {cap : Nat} {m : M} {buffer : List M}
    (h : buffer.length < cap) : offer cap m buffer = buffer ++ [m] := if_pos h

theorem length_offer {cap : Nat} {m : M} {buffer : List M}
    (h : buffer.length ≤ cap) : (offer cap m buffer).length ≤ cap := by
  unfold offer
  split
  · next hlt =>
      rw [List.length_append, List.length_singleton]
      omega
  · exact h

variable [DecidableEq κ]

section
variable [DecidableEq M]

def act (cap : Nat) (h : Hub κ M) : Act κ M → Outcome (Hub κ M)
  | .join k =>
      if h.phase k = .idle then .next { h with
        members := insert k h.members
        phase := Function.update h.phase k .streaming }
      else .blocked
  | .send m =>
      if ∃ k ∈ h.members, h.closed k = true then .panic
      else .next { h with buffer := fun k =>
        if k ∈ h.members then offer cap m (h.buffer k) else h.buffer k }
  | .recv k m =>
      if h.phase k = .streaming then
        match h.buffer k with
        | [] => .blocked
        | x :: rest =>
            if x = m then .next { h with
              buffer := Function.update h.buffer k rest }
            else .blocked
      else .blocked
  | .leave k =>
      if h.phase k = .streaming then .next { h with
        members := h.members.erase k
        phase := Function.update h.phase k .leaving }
      else .blocked
  | .close k =>
      if h.phase k = .leaving then
        if h.closed k = true then .panic
        else .next { h with
          closed := Function.update h.closed k true
          phase := Function.update h.phase k .gone }
      else .blocked

/-- A step that is taken. -/
def Step (cap : Nat) (h : Hub κ M) (a : Act κ M) (h' : Hub κ M) : Prop :=
  h.act cap a = .next h'

/-! ## What a step did -/

variable {cap : Nat} {h h' : Hub κ M} {k : κ} {m : M}

theorem step_join (hs : Step cap h (.join k) h') :
    h.phase k = .idle ∧ h' = { h with
      members := insert k h.members
      phase := Function.update h.phase k .streaming } := by
  unfold Step act at hs
  dsimp only at hs
  split at hs
  · next hphase =>
      cases hs
      exact ⟨hphase, rfl⟩
  · cases hs

theorem step_send (hs : Step cap h (.send m) h') :
    h' = { h with buffer := fun k =>
      if k ∈ h.members then offer cap m (h.buffer k) else h.buffer k } := by
  unfold Step act at hs
  dsimp only at hs
  split at hs
  · cases hs
  · cases hs
    rfl

theorem step_recv (hs : Step cap h (.recv k m) h') :
    h.phase k = .streaming ∧ ∃ rest, h.buffer k = m :: rest ∧
      h' = { h with buffer := Function.update h.buffer k rest } := by
  unfold Step act at hs
  dsimp only at hs
  split at hs
  · next hphase =>
      split at hs
      · cases hs
      · next x rest hbuffer =>
          split at hs
          · next hx =>
              cases hs
              exact ⟨hphase, rest, hx ▸ hbuffer, rfl⟩
          · cases hs
  · cases hs

theorem step_leave (hs : Step cap h (.leave k) h') :
    h.phase k = .streaming ∧ h' = { h with
      members := h.members.erase k
      phase := Function.update h.phase k .leaving } := by
  unfold Step act at hs
  dsimp only at hs
  split at hs
  · next hphase =>
      cases hs
      exact ⟨hphase, rfl⟩
  · cases hs

theorem step_close (hs : Step cap h (.close k) h') :
    h.phase k = .leaving ∧ h' = { h with
      closed := Function.update h.closed k true
      phase := Function.update h.phase k .gone } := by
  unfold Step act at hs
  dsimp only at hs
  split at hs
  · next hphase =>
      split at hs
      · cases hs
      · cases hs
        exact ⟨hphase, rfl⟩
  · cases hs

end

/-! ## The invariant -/

/-- Who is a member, and which channels are closed, is known from the phases;
and no channel holds more than it can. -/
structure Orderly (cap : Nat) (h : Hub κ M) : Prop where
  members : ∀ k, k ∈ h.members ↔ h.phase k = .streaming
  closed : ∀ k, h.closed k = true ↔ h.phase k = .gone
  length_le : ∀ k, (h.buffer k).length ≤ cap
  idle : ∀ k, h.phase k = .idle → h.buffer k = []

omit [DecidableEq κ] in
theorem orderly_empty (cap : Nat) : Orderly cap (empty : Hub κ M) :=
  ⟨fun _ => by simp [empty], fun _ => by simp [empty],
    fun _ => Nat.zero_le cap, fun _ _ => rfl⟩

variable [DecidableEq M] {cap : Nat} {h h' : Hub κ M} {k : κ} {m : M}

theorem Orderly.step {a : Act κ M} (hI : Orderly cap h)
    (hs : Step cap h a h') : Orderly cap h' := by
  obtain ⟨hmembers, hclosed, hlength, hidle⟩ := hI
  cases a with
  | join j =>
      obtain ⟨hphase, rfl⟩ := step_join hs
      refine ⟨fun i => ?_, fun i => ?_, hlength, fun i hi => ?_⟩
      · dsimp only
        rw [Finset.mem_insert, hmembers, Function.update_apply]
        by_cases hij : i = j
        · simp [hij]
        · simp [hij]
      · dsimp only
        rw [hclosed, Function.update_apply]
        by_cases hij : i = j
        · simp [hij, hphase]
        · simp [hij]
      · by_cases hij : i = j
        · exact hidle i (hij ▸ hphase)
        · have hi' : h.phase i = .idle := by
            simpa [Function.update_of_ne hij] using hi
          exact hidle i hi'
  | send m =>
      obtain rfl := step_send hs
      refine ⟨hmembers, hclosed, fun i => ?_, fun i hi => ?_⟩
      · dsimp only
        split
        · exact length_offer (hlength i)
        · exact hlength i
      · have hnot : i ∉ h.members := by
          rw [hmembers, hi]
          decide
        dsimp only
        rw [if_neg hnot]
        exact hidle i hi
  | recv j m =>
      obtain ⟨hphase, rest, hbuffer, rfl⟩ := step_recv hs
      refine ⟨hmembers, hclosed, fun i => ?_, fun i hi => ?_⟩
      · by_cases hij : i = j
        · subst hij
          have hle := hlength i
          rw [hbuffer, List.length_cons] at hle
          dsimp only
          rw [Function.update_self]
          omega
        · dsimp only
          rw [Function.update_of_ne hij]
          exact hlength i
      · have hij : i ≠ j := by
          rintro rfl
          exact absurd (hphase.symm.trans hi) (by decide)
        dsimp only
        rw [Function.update_of_ne hij]
        exact hidle i hi
  | leave j =>
      obtain ⟨hphase, rfl⟩ := step_leave hs
      refine ⟨fun i => ?_, fun i => ?_, hlength, fun i hi => ?_⟩
      · dsimp only
        rw [Finset.mem_erase, hmembers, Function.update_apply]
        by_cases hij : i = j
        · simp [hij]
        · simp [hij]
      · dsimp only
        rw [hclosed, Function.update_apply]
        by_cases hij : i = j
        · simp [hij, hphase]
        · simp [hij]
      · by_cases hij : i = j
        · simp [hij] at hi
        · have hi' : h.phase i = .idle := by
            simpa [Function.update_of_ne hij] using hi
          exact hidle i hi'
  | close j =>
      obtain ⟨hphase, rfl⟩ := step_close hs
      refine ⟨fun i => ?_, fun i => ?_, hlength, fun i hi => ?_⟩
      · dsimp only
        rw [hmembers, Function.update_apply]
        by_cases hij : i = j
        · simp [hij, hphase]
        · simp [hij]
      · dsimp only
        rw [Function.update_apply, Function.update_apply]
        by_cases hij : i = j
        · simp [hij]
        · simpa [hij] using hclosed i
      · by_cases hij : i = j
        · simp [hij] at hi
        · have hi' : h.phase i = .idle := by
            simpa [Function.update_of_ne hij] using hi
          exact hidle i hi'

/-- Nothing goes wrong in a step of an orderly hub. -/
theorem Orderly.no_panic (hI : Orderly cap h) (a : Act κ M) :
    h.act cap a ≠ .panic := by
  intro hp
  cases a with
  | send m =>
      unfold act at hp
      dsimp only at hp
      split at hp
      · next hex =>
          obtain ⟨i, hi, hclosed⟩ := hex
          -- a member is streaming, and a closed channel's client is gone
          have hstreaming := (hI.members i).mp hi
          rw [(hI.closed i).mp hclosed] at hstreaming
          cases hstreaming
      · cases hp
  | close j =>
      unfold act at hp
      dsimp only at hp
      split at hp
      · next hphase =>
          split at hp
          · next hclosed =>
              rw [(hI.closed j).mp hclosed] at hphase
              cases hphase
          · cases hp
      · cases hp
  | join j =>
      unfold act at hp
      dsimp only at hp
      split at hp <;> cases hp
  | leave j =>
      unfold act at hp
      dsimp only at hp
      split at hp <;> cases hp
  | recv j m =>
      unfold act at hp
      dsimp only at hp
      split at hp
      · split at hp
        · cases hp
        · split at hp <;> cases hp
      · cases hp

theorem Orderly.run {as : List (Act κ M)} (hI : Orderly cap h)
    (hrun : Run (Step cap) h as h') : Orderly cap h' :=
  hrun.invariant (fun _ _ _ hI hs => hI.step hs) hI

/-! ## What is sent and what is received -/

/-- The messages a client received. -/
def received (k : κ) : List (Act κ M) → List M
  | [] => []
  | .recv j m :: as => if j = k then m :: received k as else received k as
  | .join _ :: as | .send _ :: as | .leave _ :: as | .close _ :: as =>
      received k as

omit [DecidableEq M] in
theorem received_append (k : κ) (as bs : List (Act κ M)) :
    received k (as ++ bs) = received k as ++ received k bs := by
  induction as with
  | nil => rfl
  | cons a as ih =>
      cases a with
      | recv j m =>
          rw [List.cons_append, received, received, ih]
          split
          · rw [List.cons_append]
          · rfl
      | join j | send m | leave j | close j =>
          rw [List.cons_append, received, received, ih]

/-- The messages sent while a client was a member. -/
def window (k : κ) : Bool → List (Act κ M) → List M
  | _, [] => []
  | inside, .join j :: as => window k (if j = k then true else inside) as
  | inside, .leave j :: as => window k (if j = k then false else inside) as
  | inside, .send m :: as =>
      if inside then m :: window k inside as else window k inside as
  | inside, .recv _ _ :: as | inside, .close _ :: as => window k inside as

/-- A step that is not a send to the client's full channel. -/
def HasRoom (cap : Nat) (k : κ) (h : Hub κ M) : Act κ M → Prop
  | .send _ => k ∈ h.members → (h.buffer k).length < cap
  | .join _ | .recv _ _ | .leave _ | .close _ => True

theorem Step.unique {a : Act κ M} {h₁ h₂ : Hub κ M} (hs₁ : Step cap h a h₁)
    (hs₂ : Step cap h a h₂) : h₁ = h₂ := by
  have h := hs₁.symm.trans hs₂
  cases h
  rfl

/-- First in, first out. -/
theorem fifo {as : List (Act κ M)} (hrun : Run (Step cap) h as h') :
    ∃ kept, received k as ++ h'.buffer k = h.buffer k ++ kept ∧
      kept.Sublist (window k (decide (k ∈ h.members)) as) ∧
      (Run (Restrict (Step cap) (HasRoom cap k)) h as h' →
        kept = window k (decide (k ∈ h.members)) as) := by
  induction hrun with
  | nil => exact ⟨[], by simp [received], by simp [window], fun _ => rfl⟩
  | @cons h h₁ h' a as hs hrest ih =>
      obtain ⟨kept, hkept, hsub, hall⟩ := ih
      -- a run that always finds room does so in its first step and after it
      have hroom : Run (Restrict (Step cap) (HasRoom cap k)) h (a :: as) h' →
          HasRoom cap k h a ∧
            kept = window k (decide (k ∈ h₁.members)) as := by
        intro hrun
        obtain ⟨h₂, ⟨hs₂, hfirst⟩, hrun⟩ := run_cons.mp hrun
        obtain rfl := hs.unique hs₂
        exact ⟨hfirst, hall hrun⟩
      cases a with
      | join j =>
          obtain ⟨_, rfl⟩ := step_join hs
          have hinside : decide (k ∈ insert j h.members) =
              if j = k then true else decide (k ∈ h.members) := by
            by_cases hj : j = k
            · simp [hj]
            · simp [hj, Ne.symm hj]
          rw [hinside] at hsub hroom
          exact ⟨kept, hkept, hsub, fun hr => (hroom hr).2⟩
      | leave j =>
          obtain ⟨_, rfl⟩ := step_leave hs
          have hinside : decide (k ∈ h.members.erase j) =
              if j = k then false else decide (k ∈ h.members) := by
            by_cases hj : j = k
            · simp [hj]
            · simp [hj, Ne.symm hj]
          rw [hinside] at hsub hroom
          exact ⟨kept, hkept, hsub, fun hr => (hroom hr).2⟩
      | close j =>
          obtain ⟨_, rfl⟩ := step_close hs
          exact ⟨kept, hkept, hsub, fun hr => (hroom hr).2⟩
      | recv j m =>
          obtain ⟨_, rest, hbuffer, rfl⟩ := step_recv hs
          refine ⟨kept, ?_, hsub, fun hr => (hroom hr).2⟩
          dsimp only at hkept
          by_cases hj : j = k
          · subst hj
            rw [Function.update_self] at hkept
            rw [received, if_pos rfl, hbuffer, List.cons_append, hkept]
            rfl
          · rw [Function.update_of_ne (Ne.symm hj)] at hkept
            rw [received, if_neg hj]
            exact hkept
      | send m =>
          obtain rfl := step_send hs
          dsimp only at hkept hsub hroom
          by_cases hk : k ∈ h.members
          · rw [if_pos hk] at hkept
            rw [decide_eq_true hk] at hsub hroom ⊢
            rw [window, if_pos rfl]
            by_cases hlt : (h.buffer k).length < cap
            · rw [offer_of_lt hlt, List.append_assoc,
                List.singleton_append] at hkept
              exact ⟨m :: kept, hkept, hsub.cons_cons m, fun hr => by
                rw [(hroom hr).2]⟩
            · have hfull : offer cap m (h.buffer k) = h.buffer k := if_neg hlt
              rw [hfull] at hkept
              exact ⟨kept, hkept, hsub.cons m, fun hr =>
                absurd ((hroom hr).1 hk) hlt⟩
          · rw [if_neg hk] at hkept
            rw [decide_eq_false hk] at hsub hroom ⊢
            rw [window, if_neg Bool.false_ne_true]
            exact ⟨kept, hkept, hsub, fun hr => (hroom hr).2⟩

/-- A message that found room is received before the channel is empty, and only
later ones come after it. -/
theorem delivers {as : List (Act κ M)} (hk : k ∈ h.members)
    (hroom : (h.buffer k).length < cap)
    (hrun : Run (Step cap) h (.send m :: as) h')
    (hdrained : h'.buffer k = []) :
    ∃ pre post, received k as = pre ++ m :: post ∧
      post.Sublist (window k true as) := by
  obtain ⟨h₁, hs, hrest⟩ := run_cons.mp hrun
  obtain rfl := step_send hs
  obtain ⟨kept, hkept, hsub, _⟩ := fifo (k := k) hrest
  dsimp only at hkept hsub
  rw [if_pos hk, offer_of_lt hroom, hdrained, List.append_nil,
    List.append_assoc, List.singleton_append] at hkept
  rw [decide_eq_true hk] at hsub
  exact ⟨h.buffer k, kept, hkept, hsub⟩

end Hub

end Vexil.Lib
