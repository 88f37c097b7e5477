import Vexil.Lib.Hub
import Vexil.Sidecar.FlagStore

/-!
# The flag store under concurrency

`flagStore` and the handler of `GET /flags/stream`, one critical section at a
time. A `Set` is two of them, the write under `mu` and the broadcast under
`subMu`; an exit of the handler is two steps as well, since `Unsubscribe` closes
the channel after it has released the lock. In between anything may happen, and
several `Set`s may be under way.

The subscribers are a `Hub`. Each broadcast gets a number, which no code reads;
it tells two broadcasts of equal flags apart.

`Represents` connects this to `FlagStore`, where a `Set` is one step.
-/

namespace Vexil.Sidecar

open Vexil.Lib

/-- A flag on its way to the subscribers, and the number of its broadcast. -/
structure FlagEvent where
  serial : Nat
  flag : ResolvedFlag
  deriving DecidableEq, Repr

/-- The store; `pending` are the `Set`s between their two sections. Channels and
the handlers they belong to are named by numbers. -/
structure Streams where
  flags : GoMap ResolvedFlag := ∅
  pending : List ResolvedFlag := []
  broadcasts : Nat := 0
  hub : Hub Nat FlagEvent := .empty

namespace Streams

/-- The sections and the steps of the handlers. -/
inductive Act where
  | write (f : ResolvedFlag)
  | broadcast (f : ResolvedFlag)
  | delete (name : String)
  | subscribe (k : Nat)
  | receive (k : Nat) (e : FlagEvent)
  | unsubscribe (k : Nat)
  | close (k : Nat)
  deriving DecidableEq

/-- What a step is for the hub, after `n` broadcasts. -/
def hubAct (n : Nat) : Act → Option (Hub.Act Nat FlagEvent)
  | .write _ | .delete _ => none
  | .broadcast f => some (.send ⟨n, f⟩)
  | .subscribe k => some (.join k)
  | .receive k e => some (.recv k e)
  | .unsubscribe k => some (.leave k)
  | .close k => some (.close k)

/-- A step of the hub in a state of the store. -/
def onHub (s : Streams) : Outcome (Hub Nat FlagEvent) → Outcome Streams
  | .next hub => .next { s with hub := hub }
  | .blocked => .blocked
  | .panic => .panic

def act (s : Streams) : Act → Outcome Streams
  | .write f => .next { s with
      flags := s.flags.insert f.name f
      pending := s.pending ++ [f] }
  | .delete name => .next { s with flags := s.flags.erase name }
  | .broadcast f =>
      if f ∈ s.pending then
        { s with
          pending := s.pending.erase f
          broadcasts := s.broadcasts + 1 }.onHub
            (s.hub.act channelCapacity (.send ⟨s.broadcasts, f⟩))
      else .blocked
  | .subscribe k => s.onHub (s.hub.act channelCapacity (.join k))
  | .receive k e => s.onHub (s.hub.act channelCapacity (.recv k e))
  | .unsubscribe k => s.onHub (s.hub.act channelCapacity (.leave k))
  | .close k => s.onHub (s.hub.act channelCapacity (.close k))

def Step (s : Streams) (a : Act) (s' : Streams) : Prop := s.act a = .next s'

theorem Step.unique {s s₁ s₂ : Streams} {a : Act} (h₁ : Step s a s₁)
    (h₂ : Step s a s₂) : s₁ = s₂ := by
  have h := h₁.symm.trans h₂
  cases h
  rfl

/-- A step that can be taken, as a function. -/
def next (s : Streams) (a : Act) : Option Streams :=
  match s.act a with
  | .next s' => some s'
  | .blocked | .panic => none

theorem step_of_next {s s' : Streams} {a : Act} (h : s.next a = some s') :
    Step s a s' := by
  unfold next at h
  split at h
  · next hact =>
      cases h
      exact hact
  · cases h
  · cases h

/-! ## The steps of the hub -/

theorem onHub_next {s s' : Streams} {o : Outcome (Hub Nat FlagEvent)}
    (h : s.onHub o = .next s') :
    ∃ hub, o = .next hub ∧ s' = { s with hub := hub } := by
  cases o with
  | next hub =>
      cases h
      exact ⟨hub, rfl, rfl⟩
  | blocked => cases h
  | panic => cases h

theorem onHub_panic {s : Streams} {o : Outcome (Hub Nat FlagEvent)}
    (h : s.onHub o = .panic) : o = .panic := by
  cases o with
  | next hub => cases h
  | blocked => cases h
  | panic => rfl

/-- The number of broadcasts after a step. -/
def counted (n : Nat) : Act → Nat
  | .broadcast _ => n + 1
  | .write _ | .delete _ | .subscribe _ | .receive _ _ | .unsubscribe _
  | .close _ => n

/-- What a step did to the three parts of the store. -/
structure Did (s : Streams) (a : Act) (s' : Streams) : Prop where
  flags : s'.flags =
    match a with
    | .write f => s.flags.insert f.name f
    | .delete name => s.flags.erase name
    | _ => s.flags
  pending : s'.pending =
    match a with
    | .write f => s.pending ++ [f]
    | .broadcast f => s.pending.erase f
    | _ => s.pending
  broadcasts : s'.broadcasts = counted s.broadcasts a
  was_pending : ∀ f, a = .broadcast f → f ∈ s.pending
  hub : match hubAct s.broadcasts a with
    | none => s'.hub = s.hub
    | some b => s.hub.Step channelCapacity b s'.hub

theorem did_of_step {s s' : Streams} {a : Act} (h : Step s a s') :
    Did s a s' := by
  unfold Step act at h
  cases a with
  | write f =>
      cases h
      exact ⟨rfl, rfl, rfl, fun _ h => (by cases h), rfl⟩
  | delete name =>
      cases h
      exact ⟨rfl, rfl, rfl, fun _ h => (by cases h), rfl⟩
  | broadcast f =>
      dsimp only at h
      split at h
      · next hf =>
          obtain ⟨hub, hhub, rfl⟩ := onHub_next h
          refine ⟨rfl, rfl, rfl, fun g hg => ?_, hhub⟩
          cases hg
          exact hf
      · cases h
  | subscribe k =>
      obtain ⟨hub, hhub, rfl⟩ := onHub_next h
      exact ⟨rfl, rfl, rfl, fun _ h => (by cases h), hhub⟩
  | receive k e =>
      obtain ⟨hub, hhub, rfl⟩ := onHub_next h
      exact ⟨rfl, rfl, rfl, fun _ h => (by cases h), hhub⟩
  | unsubscribe k =>
      obtain ⟨hub, hhub, rfl⟩ := onHub_next h
      exact ⟨rfl, rfl, rfl, fun _ h => (by cases h), hhub⟩
  | close k =>
      obtain ⟨hub, hhub, rfl⟩ := onHub_next h
      exact ⟨rfl, rfl, rfl, fun _ h => (by cases h), hhub⟩

/-- The steps of a run that are the hub's. -/
def hubActs : Nat → List Act → List (Hub.Act Nat FlagEvent)
  | _, [] => []
  | n, a :: as =>
      match hubAct n a with
      | none => hubActs (counted n a) as
      | some b => b :: hubActs (counted n a) as

/-- A run of the store is a run of its hub; a condition on the steps of the hub
carries over. -/
theorem hub_run {C : Hub Nat FlagEvent → Hub.Act Nat FlagEvent → Prop}
    {s s' : Streams} {as : List Act}
    (h : Run (Restrict Step fun s a =>
      ∀ b, hubAct s.broadcasts a = some b → C s.hub b) s as s') :
    Run (Restrict (Hub.Step channelCapacity) C) s.hub
      (hubActs s.broadcasts as) s'.hub := by
  induction h with
  | nil => exact .nil
  | @cons s m s' a as hstep _ ih =>
      have hdid := did_of_step hstep.1
      have hhub := hdid.hub
      rw [hdid.broadcasts] at ih
      rw [hubActs]
      cases hb : hubAct s.broadcasts a with
      | none =>
          rw [hb] at hhub
          dsimp only at hhub ⊢
          rw [← hhub]
          exact ih
      | some b =>
          rw [hb] at hhub
          exact .cons ⟨hhub, hstep.2 b hb⟩ ih

theorem hub_run' {s s' : Streams} {as : List Act} (h : Run Step s as s') :
    Run (Hub.Step channelCapacity) s.hub (hubActs s.broadcasts as) s'.hub :=
  (hub_run (C := fun _ _ => True)
    (h.mono fun _ _ _ hs => ⟨hs, fun _ _ => trivial⟩)).unrestrict

/-! ## One step at a time -/

/-- A `FlagStore` with the flags of the store and, in the order in which they
came, its subscribers with what is in their channels. -/
structure Represents (store : FlagStore) (s : Streams) : Prop where
  flags : store.flags = s.flags
  subscribers : ∀ k, store.subscribers.get? k =
    if k ∈ s.hub.members then
      some ⟨k, (s.hub.buffer k).map FlagEvent.flag⟩
    else none

theorem map_offer (f : ResolvedFlag) (n k : Nat) (buffer : List FlagEvent) :
    FlagStore.offer f ⟨k, buffer.map FlagEvent.flag⟩ =
      ⟨k, (Hub.offer channelCapacity ⟨n, f⟩ buffer).map FlagEvent.flag⟩ := by
  unfold FlagStore.offer Hub.offer
  simp only [List.length_map]
  split
  · rw [List.map_append, List.map_singleton]
  · rfl

/-- A `Set` whose sections follow on each other is the `Set` of `FlagStore`. -/
theorem Represents.set {store : FlagStore} {s m s' : Streams}
    {f : ResolvedFlag} (h : Represents store s) (hwrite : Step s (.write f) m)
    (hbroadcast : Step m (.broadcast f) s') :
    Represents (store.set f) s' := by
  have hw := did_of_step hwrite
  have hb := did_of_step hbroadcast
  have hsend := Hub.step_send hb.hub
  have hhub : m.hub = s.hub := hw.hub
  constructor
  · rw [hb.flags, hw.flags, ← h.flags]
    rfl
  · intro k
    have hget : (store.set f).subscribers.get? k =
        (store.subscribers.get? k).map (FlagStore.offer f) :=
      Table.get?_mapItems store.subscribers _ (FlagStore.id_offer f) k
    rw [hget, h.subscribers, hsend, hhub]
    dsimp only
    by_cases hk : k ∈ s.hub.members
    · rw [if_pos hk, if_pos hk, if_pos hk, Option.map_some,
        map_offer f m.broadcasts]
    · rw [if_neg hk, if_neg hk]
      rfl

theorem Represents.delete {store : FlagStore} {s s' : Streams} {name : String}
    (h : Represents store s) (hs : Step s (.delete name) s') :
    Represents (store.delete name) s' := by
  have hdid := did_of_step hs
  have hhub : s'.hub = s.hub := hdid.hub
  refine ⟨?_, fun k => ?_⟩
  · rw [hdid.flags, ← h.flags]
    rfl
  · rw [hhub]
    exact h.subscribers k

end Streams

end Vexil.Sidecar
