import Vexil.Lib.Run
import Vexil.Sdk.Cache

/-!
# Every Set has a version

The sidecar and the SDK's cache once more, with everything that
`sidecarProvider` can have under way: several `GetFlag` and `GetAllFlags` at
once, and a stream that breaks and is opened again. The `Set`s are numbered, and
a flag keeps the number of its `Set` wherever it goes.

A `Set` is two steps, since a response can come between its write and its
broadcast. There is one watcher, so the next `Set` or deletion begins after the
broadcast. A `GetAllFlags` stores its flags one by one.

The versions are annotations: a run without them, as in `Provider`, is a run
with them that forgets them (`run_versions`).
-/

namespace Vexil.Sdk.Versions

open Vexil.Lib Vexil.Sidecar

/-- Something that comes from a `Set`, and the number of it. -/
abbrev Stamped (α : Type) : Type := α × Nat

/-- Where the stream is; `queue` is what its channel holds. -/
inductive Stream where
  | idle
  | connected
  | subscribed (queue : List (Stamped ResolvedFlag))

def Stream.queue : Stream → List (Stamped ResolvedFlag)
  | .idle | .connected => []
  | .subscribed queue => queue

/-- `broadcast`, for the one channel. -/
def Stream.offer (f : Stamped ResolvedFlag) : Stream → Stream
  | .idle => .idle
  | .connected => .connected
  | .subscribed queue =>
      .subscribed
        (if queue.length < channelCapacity then queue ++ [f] else queue)

/-- `sets` is the number of the last `Set`, `unsent` what it has written and not
broadcast yet. `waiting` and `waitingAll` are the calls without a response,
`responses` the flags that have come back and are not in the cache yet. -/
structure State where
  flags : GoMap (Stamped ResolvedFlag) := ∅
  sets : Nat := 0
  unsent : Option (Stamped ResolvedFlag) := none
  cache : GoMap (Stamped Flag) := ∅
  waiting : List String := []
  waitingAll : Nat := 0
  responses : List (String × Stamped Flag) := []
  stream : Stream := .idle
  wire : List (Stamped ResolvedFlag) := []

inductive Act where
  | write (f : ResolvedFlag)
  | broadcast
  | delete (name : String)
  | lookup (name : String)
  | respond (name : String) (r : Option (Stamped Flag))
  | lookupAll
  | respondAll (fs : List (Stamped ResolvedFlag))
  | cacheStore (name : String) (f : Stamped Flag)
  | connect
  | subscribe
  | send
  | deliver
  | disconnect

/-- What the sidecar has under a name, as an SDK decodes it. -/
def stored (s : State) (name : String) : Option (Stamped Flag) :=
  (s.flags.lookup name).map fun f => (decodeFlag f.1, f.2)

/-- What can come back for a name: of one that is not an object's, anything that
was ever set. -/
def Responds (s : State) (name : String) (r : Option (Stamped Flag)) : Prop :=
  (∀ f ∈ r, f.2 ≤ s.sets) ∧
    (ObjectName name → r = if name = "stream" then none else stored s name)

instance (s : State) (name : String) (r : Option (Stamped Flag)) :
    Decidable (Responds s name r) :=
  @instDecidableAnd _ _ (Option.decidableForallMem _)
    (inferInstanceAs (Decidable (_ → _)))

/-- `All`, in no order that a caller can rely on. -/
def all (s : State) : Multiset (Stamped ResolvedFlag) :=
  s.flags.entries.map Sigma.snd

/-- What a response to `GetAllFlags` has for the cache. -/
def decoded (f : Stamped ResolvedFlag) : String × Stamped Flag :=
  (f.1.name, decodeFlag f.1, f.2)

/-- A step, if it can be taken. -/
def next (s : State) : Act → Option State
  | .write f =>
      if s.unsent = none then some { s with
          flags := s.flags.insert f.name (f, s.sets + 1)
          sets := s.sets + 1
          unsent := some (f, s.sets + 1) }
      else none
  | .broadcast =>
      match s.unsent with
      | none => none
      | some f => some { s with
          unsent := none
          stream := s.stream.offer f }
  | .delete name =>
      if s.unsent = none then some { s with flags := s.flags.erase name }
      else none
  | .lookup name =>
      match s.cache.lookup name with
      | some _ => some s
      | none => some { s with waiting := s.waiting ++ [name] }
  | .respond name r =>
      if name ∈ s.waiting ∧ Responds s name r then some { s with
          waiting := s.waiting.erase name
          responses := s.responses ++ r.toList.map fun f => (name, f) }
      else none
  | .lookupAll => some { s with waitingAll := s.waitingAll + 1 }
  | .respondAll fs =>
      if 0 < s.waitingAll ∧ (fs : Multiset _) = all s then some { s with
          waitingAll := s.waitingAll - 1
          responses := s.responses ++ fs.map decoded }
      else none
  | .cacheStore name f =>
      if (name, f) ∈ s.responses then
        some { s with
          cache := s.cache.insert name f
          responses := s.responses.erase (name, f) }
      else none
  | .connect =>
      match s.stream with
      | .idle => some { s with stream := .connected }
      | .connected | .subscribed _ => none
  | .subscribe =>
      match s.stream with
      | .connected => some { s with stream := .subscribed [] }
      | .idle | .subscribed _ => none
  | .send =>
      match s.stream with
      | .subscribed (f :: queue) => some { s with
          stream := .subscribed queue
          wire := s.wire ++ [f] }
      | .idle | .connected | .subscribed [] => none
  | .deliver =>
      match s.wire with
      | [] => none
      | f :: rest => some { s with
          cache := s.cache.insert f.1.name (decodeFlag f.1, f.2)
          wire := rest }
  | .disconnect => some { s with stream := .idle, wire := [] }

def Step (s : State) (a : Act) (s' : State) : Prop := next s a = some s'

/-- The version of a flag in the cache. -/
def version (s : State) (name : String) : Option Nat :=
  (s.cache.lookup name).map Prod.snd

/-- The events that have been sent and not been read. -/
def inFlight (s : State) : List (Stamped ResolvedFlag) :=
  s.wire ++ s.stream.queue

/-! ## Without the versions -/

/-- The streams are at the same place. -/
inductive SameStream (store : FlagStore) : StreamPhase → Stream → Prop
  | idle : SameStream store .idle .idle
  | connected : SameStream store .connected .connected
  | subscribed {id : Nat} {queue : List (Stamped ResolvedFlag)}
      (hqueue : store.channel id = some (queue.map Prod.fst)) :
      SameStream store (.subscribed id) (.subscribed queue)

/-- The state without the versions, when no `Set` is half done. -/
structure Forgets (v : State) (s : Provider.State) : Prop where
  flags : ∀ name, s.store.get name = (v.flags.lookup name).map Prod.fst
  past : ∀ name, ∀ f ∈ v.flags.lookup name, f.2 ≤ v.sets
  unsent : v.unsent = none
  cache : ∀ name, s.cache.lookup name = (v.cache.lookup name).map Prod.fst
  waiting : s.waiting = v.waiting
  responses : s.responses.Perm (v.responses.map fun r => (r.1, r.2.1))
  stream : SameStream s.store s.stream v.stream
  wire : s.wire = v.wire.map Prod.fst

variable {v : State} {s s' : Provider.State}

theorem forgets_empty : Forgets {} {} where
  flags name := by
    rw [Finmap.lookup_empty]
    exact Finmap.lookup_empty name
  past name f hf := by
    rw [Finmap.lookup_empty] at hf
    cases hf
  unsent := rfl
  cache name := by
    rw [Finmap.lookup_empty, Finmap.lookup_empty]
    rfl
  waiting := rfl
  responses := .nil
  stream := .idle
  wire := rfl

theorem sameStream_set {store : FlagStore} {phase : StreamPhase}
    {stream : Stream} (h : SameStream store phase stream)
    (f : Stamped ResolvedFlag) :
    SameStream (store.set f.1) phase (stream.offer f) := by
  cases h with
  | idle => exact .idle
  | connected => exact .connected
  | subscribed hqueue =>
      refine .subscribed ?_
      rw [FlagStore.channel_set, hqueue, Option.map_some, List.length_map]
      split
      · rw [List.map_append]
        rfl
      · rfl

theorem forgets_set (h : Forgets v s) (f : ResolvedFlag) :
    Forgets { v with
        flags := v.flags.insert f.name (f, v.sets + 1)
        sets := v.sets + 1
        unsent := none
        stream := v.stream.offer (f, v.sets + 1) }
      { s with store := s.store.set f } :=
  { h with
    flags := fun name => by
      rw [FlagStore.get_set, GoMap.lookup_insert]
      split
      · rfl
      · exact h.flags name
    past := fun name g hg => by
      rw [GoMap.lookup_insert] at hg
      split at hg
      · cases hg
        exact Nat.le_refl _
      · exact Nat.le_succ_of_le (h.past name g hg)
    unsent := rfl
    stream := sameStream_set h.stream (f, v.sets + 1) }

/-- What a response brings, with a version. -/
theorem responds_version {name : String} {r : Option Flag} (h : Forgets v s)
    (hr : Sdk.Responds s.store name r) :
    ∃ r', Responds v name r' ∧ r'.map Prod.fst = r := by
  by_cases hname : ObjectName name
  · refine ⟨if name = "stream" then none else stored v name,
      ⟨?_, fun _ => rfl⟩, ?_⟩
    · intro f hf
      split at hf
      · cases hf
      · obtain ⟨g, hg, rfl⟩ := Option.map_eq_some_iff.mp hf
        exact h.past name g hg
    · rw [hr hname, handleFlag]
      split
      · rfl
      · rw [h.flags name, stored]
        cases v.flags.lookup name with
        | none => rfl
        | some g => rfl
  · refine ⟨r.map fun f => (f, 0),
      ⟨?_, fun hobject => absurd hobject hname⟩, ?_⟩
    · intro f hf
      obtain ⟨_, _, rfl⟩ := Option.map_eq_some_iff.mp hf
      exact Nat.zero_le _
    · rw [Option.map_map]
      exact congrFun Option.map_id_fun r

/-- Nothing else touches a channel. -/
theorem SameStream.frame {store store' : FlagStore} {phase : StreamPhase}
    {stream : Stream} (h : SameStream store phase stream)
    (hsubscribers : store'.subscribers = store.subscribers) :
    SameStream store' phase stream := by
  cases h with
  | idle => exact .idle
  | connected => exact .connected
  | subscribed hqueue =>
      refine .subscribed ?_
      rw [FlagStore.channel, hsubscribers]
      exact hqueue

theorem SameStream.of_idle {store : FlagStore} {stream : Stream}
    (h : SameStream store .idle stream) : stream = .idle := by
  cases h
  rfl

theorem SameStream.of_connected {store : FlagStore} {stream : Stream}
    (h : SameStream store .connected stream) : stream = .connected := by
  cases h
  rfl

theorem SameStream.of_subscribed {store : FlagStore} {id : Nat}
    {stream : Stream} (h : SameStream store (.subscribed id) stream) :
    ∃ queue, stream = .subscribed queue ∧
      store.channel id = some (queue.map Prod.fst) := by
  cases h with
  | subscribed hqueue => exact ⟨_, rfl, hqueue⟩

theorem forgets_delete (h : Forgets v s) (name : String) :
    Forgets { v with flags := v.flags.erase name }
      { s with store := s.store.delete name } :=
  { h with
    flags := fun other => by
      rw [FlagStore.get_delete, GoMap.lookup_erase]
      split
      · rfl
      · exact h.flags other
    past := fun other f hf => by
      rw [GoMap.lookup_erase] at hf
      split at hf
      · cases hf
      · exact h.past other f hf
    stream := h.stream.frame rfl }

theorem forgets_respond {r : Option (Stamped Flag)} (h : Forgets v s)
    (name : String) :
    Forgets { v with
        waiting := v.waiting.erase name
        responses := v.responses ++ r.toList.map fun f => (name, f) }
      { s with
        waiting := s.waiting.erase name
        responses := s.responses ++
          (r.map Prod.fst).toList.map fun f => (name, f) } :=
  { h with
    waiting := by rw [h.waiting]
    responses := by
      rw [List.map_append]
      refine h.responses.append ?_
      cases r with
      | none => exact .nil
      | some f => exact .refl _ }

theorem forgets_insert {name : String} {f : Stamped Flag} {other : String}
    (h : s.cache.lookup other = (v.cache.lookup other).map Prod.fst) :
    (s.cache.insert name f.1).lookup other =
      ((v.cache.insert name f).lookup other).map Prod.fst := by
  rw [GoMap.lookup_insert, GoMap.lookup_insert]
  split
  · rfl
  · exact h

theorem forgets_cacheStore {name : String} {f : Stamped Flag}
    (h : Forgets v s) (hmem : (name, f) ∈ v.responses) :
    Forgets { v with
        cache := v.cache.insert name f
        responses := v.responses.erase (name, f) }
      { s with
        cache := s.cache.insert name f.1
        responses := s.responses.erase (name, f.1) } :=
  { h with
    cache := fun other => forgets_insert (h.cache other)
    responses := by
      have hmap := (List.perm_cons_erase hmem).map
        fun r : String × Stamped Flag => (r.1, r.2.1)
      have hrest := (h.responses.trans hmap).erase (name, f.1)
      rwa [List.map_cons, List.erase_cons_head] at hrest }

theorem forgets_send {id : Nat} {f : Stamped ResolvedFlag}
    {queue : List (Stamped ResolvedFlag)} (h : Forgets v s)
    (hid : s.stream = .subscribed id)
    (hchannel : s.store.channel id = some ((f :: queue).map Prod.fst)) :
    Forgets { v with
        stream := .subscribed queue
        wire := v.wire ++ [f] }
      { s with
        store := s.store.leave id (queue.map Prod.fst)
        wire := s.wire ++ [f.1] } :=
  { h with
    stream := by
      rw [hid]
      refine .subscribed ?_
      rw [FlagStore.channel_leave, hchannel]
      rfl
    wire := by
      rw [h.wire, List.map_append]
      rfl }

theorem forgets_deliver {f : Stamped ResolvedFlag}
    {rest : List (Stamped ResolvedFlag)} (h : Forgets v s) :
    Forgets { v with
        cache := v.cache.insert f.1.name (decodeFlag f.1, f.2)
        wire := rest }
      { s with
        cache := s.cache.insert f.1.name (decodeFlag f.1)
        wire := rest.map Prod.fst } :=
  { h with
    cache := fun other =>
      forgets_insert (f := (decodeFlag f.1, f.2)) (h.cache other)
    wire := rfl }

/-- A step without versions is one with versions, a `Set` two. -/
theorem forgets_step {a : Provider.Act} (h : Forgets v s)
    (hstep : Provider.Step s a s') :
    ∃ acts v', Run Step v acts v' ∧ Forgets v' s' := by
  have hone : ∀ b v', next v b = some v' → Forgets v' s' →
      ∃ acts v', Run Step v acts v' ∧ Forgets v' s' :=
    fun b v' hb h' => ⟨[b], v', .cons hb .nil, h'⟩
  cases a with
  | set f =>
      cases hstep
      exact ⟨[.write f, .broadcast], _, .cons (if_pos h.unsent)
        (.cons rfl .nil), forgets_set h f⟩
  | delete name =>
      cases hstep
      exact hone (.delete name) _ (if_pos h.unsent) (forgets_delete h name)
  | lookup name =>
      unfold Provider.Step Provider.next at hstep
      dsimp only at hstep
      have hcache := h.cache name
      split at hstep
      · next f hf =>
          cases hstep
          rw [hf] at hcache
          obtain ⟨g, hg, _⟩ := Option.map_eq_some_iff.mp hcache.symm
          exact hone (.lookup name) v (by rw [next, hg]) h
      · next hf =>
          cases hstep
          rw [hf] at hcache
          have hnone := Option.map_eq_none_iff.mp hcache.symm
          exact hone (.lookup name) { v with waiting := v.waiting ++ [name] }
            (by rw [next, hnone]) { h with waiting := by rw [h.waiting] }
  | respond name r =>
      unfold Provider.Step Provider.next at hstep
      dsimp only at hstep
      split at hstep
      · next hcond =>
          cases hstep
          obtain ⟨r', hr', rfl⟩ := responds_version h hcond.2
          exact hone (.respond name r') _ (if_pos ⟨h.waiting ▸ hcond.1, hr'⟩)
            (forgets_respond h name)
      · cases hstep
  | cacheStore name f =>
      unfold Provider.Step Provider.next at hstep
      dsimp only at hstep
      split at hstep
      · next hmem =>
          cases hstep
          obtain ⟨⟨name, g⟩, hg, heq⟩ :=
            List.mem_map.mp (h.responses.mem_iff.mp hmem)
          cases heq
          exact hone (.cacheStore name g) _ (if_pos hg)
            (forgets_cacheStore h hg)
      · cases hstep
  | connect =>
      obtain ⟨hidle, rfl⟩ := hstep.connect
      have hsame := h.stream
      rw [hidle] at hsame
      exact hone .connect { v with stream := .connected }
        (by rw [next, hsame.of_idle]) { h with stream := .connected }
  | subscribe =>
      obtain ⟨hconnected, rfl⟩ := hstep.subscribe
      have hsame := h.stream
      rw [hconnected] at hsame
      exact hone .subscribe { v with stream := .subscribed [] }
        (by rw [next, hsame.of_connected])
        { h with
          stream := .subscribed (FlagStore.channel_subscribe s.store) }
  | send =>
      obtain ⟨id, f, queue, hid, hqueue, rfl⟩ := hstep.send
      have hsame := h.stream
      rw [hid] at hsame
      obtain ⟨queue', hv, hqueue'⟩ := hsame.of_subscribed
      rw [hqueue] at hqueue'
      obtain ⟨g, rest, rfl, rfl, rfl⟩ :=
        List.map_eq_cons_iff.mp (Option.some.inj hqueue').symm
      exact hone .send _ (by rw [next, hv]) (forgets_send h hid hqueue)
  | deliver =>
      obtain ⟨f, rest, hwire, rfl⟩ := hstep.deliver
      have hsame := h.wire
      rw [hwire] at hsame
      obtain ⟨g, rest', hv, rfl, rfl⟩ := List.map_eq_cons_iff.mp hsame.symm
      exact hone .deliver _ (by rw [next, hv]) (forgets_deliver h)

theorem forgets_run {acts : List Provider.Act}
    (hrun : Run Provider.Step s acts s') (h : Forgets v s) :
    ∃ acts' v', Run Step v acts' v' ∧ Forgets v' s' := by
  induction hrun generalizing v with
  | nil => exact ⟨[], v, .nil, h⟩
  | cons hstep _ ih =>
      obtain ⟨acts₁, m, hrun₁, hm⟩ := forgets_step h hstep
      obtain ⟨acts₂, v', hrun₂, h'⟩ := ih hm
      exact ⟨acts₁ ++ acts₂, v', run_append.mpr ⟨m, hrun₁, hrun₂⟩, h'⟩

/-- A run of the SDK's cache next to a running sidecar has versions. -/
theorem run_versions {acts : List Provider.Act}
    (hrun : Run Provider.Step {} acts s') :
    ∃ acts' v', Run Step {} acts' v' ∧ Forgets v' s' :=
  forgets_run hrun forgets_empty

end Vexil.Sdk.Versions
