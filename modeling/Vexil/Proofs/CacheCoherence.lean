import Vexil.Lib.Run
import Vexil.Sdk.Cache

/-!
# The SDK's cache and the sidecar's store

A name that is in the cache stays there, so `GetFlag` answers with what was
stored last. That is what the sidecar has as long as every change of the flag
sends an event that comes after everything else: it is enough that an event
which is still in flight is the newest value, and that without one the cached
value is the stored one.

Three kinds of steps break it. A deletion sends nothing. A `Set` before the
stream is subscribed sends nothing either, and the cache can have an older value
from a response. A response can be overtaken by an event, and then the older one
is stored last.
-/

namespace Vexil.Sdk.Provider

open Vexil.Lib Vexil.Sidecar

/-! ## The steps and the events in flight -/

theorem inFlight_set {s : State} {f : ResolvedFlag} (name : String)
    (hname : f.name ≠ name) :
    lastNamed name (inFlight { s with store := s.store.set f }) =
      lastNamed name (inFlight s) := by
  unfold inFlight channel
  cases s.stream with
  | idle => rfl
  | connected => rfl
  | subscribed id =>
      dsimp only
      rw [FlagStore.channel_set, lastNamed_append, lastNamed_append]
      congr 1
      cases s.store.channel id with
      | none => rfl
      | some queue =>
          have hskip : lastNamed name [f] = none :=
            lastNamed_eq_none (by simpa using hname)
          simp only [Option.map_some, Option.getD_some]
          split
          · rw [lastNamed_append, hskip]
            rfl
          · rfl

theorem inFlight_set_self {s : State} {f : ResolvedFlag} {id : Nat}
    {queue : List ResolvedFlag} (hs : s.stream = .subscribed id)
    (hqueue : s.store.channel id = some queue)
    (hroom : queue.length < channelCapacity) :
    lastNamed f.name (inFlight { s with store := s.store.set f }) = some f := by
  have hin : inFlight { s with store := s.store.set f } =
      (s.wire ++ queue) ++ f :: [] := by
    unfold inFlight channel
    rw [hs]
    dsimp only
    rw [FlagStore.channel_set, hqueue, Option.map_some, if_pos hroom,
      Option.getD_some, List.append_assoc]
  rw [hin]
  exact lastNamed_middle rfl (by simp)

theorem inFlight_delete (s : State) (name : String) :
    inFlight { s with store := s.store.delete name } = inFlight s := rfl

/-! ## The condition on steps -/

/-- Whether the SDK has or will get a value for the name. -/
def Known (name : String) (s : State) : Prop :=
  s.cache.lookup name ≠ none ∨ lastNamed name (inFlight s) ≠ none

instance (name : String) (s : State) : Decidable (Known name s) :=
  inferInstanceAs (Decidable (_ ∨ _))

/-- The condition for one name. The flag is not deleted when the SDK knows it;
it is set while there is a subscriber with room, or the cache has no other value
and can get this one; a response is stored while it is what the sidecar has, or
an event is to come. -/
def Careful (name : String) (s : State) : Act → Prop
  | .set f => f.name = name →
      match s.stream with
      | .subscribed id =>
          ((s.store.channel id).getD []).length < channelCapacity
      | .idle | .connected => name ≠ "stream" ∧
          (s.cache.lookup name = none ∨
            s.cache.lookup name = some (decodeFlag f))
  | .delete other => other = name → ¬ Known name s
  | .cacheStore other f => other = name →
      (s.store.get name).map decodeFlag = some f ∨
        lastNamed name (inFlight s) ≠ none
  | .lookup _ | .respond _ _ | .connect | .subscribe | .send | .deliver => True

/-! ## The invariant -/

/-- What holds of one name between steps. -/
structure Coherent (name : String) (s : State) : Prop where
  registered : ∀ id, s.stream = .subscribed id →
    ∃ queue, s.store.channel id = some queue
  quiet : (∀ id, s.stream ≠ .subscribed id) → s.wire = []
  pending : ∀ f, lastNamed name (inFlight s) = some f →
    s.store.get name = some f
  cached : lastNamed name (inFlight s) = none →
    ∀ g, s.cache.lookup name = some g →
      (s.store.get name).map decodeFlag = some g
  reached : name = "stream" → s.store.get name ≠ none → Known name s

variable {name : String} {s s' : State}

theorem coherent_empty (name : String) : Coherent name {} where
  registered id hid := by cases hid
  quiet _ := rfl
  pending f hf := by cases hf
  cached _ g hg := by
    rw [Finmap.lookup_empty] at hg
    cases hg
  reached _ hne := absurd (Finmap.lookup_empty name) hne

/-- A step that changes none of this. -/
theorem Coherent.frame (h : Coherent name s) (hstore : s'.store = s.store)
    (hcache : s'.cache = s.cache) (hstream : s'.stream = s.stream)
    (hwire : s'.wire = s.wire) : Coherent name s' := by
  obtain ⟨store, cache, waiting, responses, stream, wire⟩ := s
  obtain ⟨store', cache', waiting', responses', stream', wire'⟩ := s'
  dsimp only at hstore hcache hstream hwire
  subst hstore hcache hstream hwire
  exact ⟨h.registered, h.quiet, h.pending, h.cached, h.reached⟩

/-- A step of the stream that moves events without losing one. -/
theorem Coherent.move (h : Coherent name s)
    (hget : s'.store.get name = s.store.get name) (hcache : s'.cache = s.cache)
    (hin : lastNamed name (inFlight s') = lastNamed name (inFlight s))
    (hregistered : ∀ id, s'.stream = .subscribed id →
      ∃ queue, s'.store.channel id = some queue)
    (hquiet : (∀ id, s'.stream ≠ .subscribed id) → s'.wire = []) :
    Coherent name s' where
  registered := hregistered
  quiet := hquiet
  pending := by
    rw [hin, hget]
    exact h.pending
  cached := by
    rw [hin, hget, hcache]
    exact h.cached
  reached := by
    rw [Known, hin, hget, hcache]
    exact h.reached

theorem registered_set (h : Coherent name s) (f : ResolvedFlag) (id : Nat)
    (hid : s.stream = .subscribed id) :
    ∃ queue, (s.store.set f).channel id = some queue := by
  obtain ⟨queue, hqueue⟩ := h.registered id hid
  rw [FlagStore.channel_set, hqueue]
  exact ⟨_, rfl⟩

theorem inFlight_eq_nil (hs : ∀ id, s.stream ≠ .subscribed id)
    (hwire : s.wire = []) : inFlight s = [] := by
  unfold inFlight channel
  cases hstream : s.stream with
  | idle => simp [hwire]
  | connected => simp [hwire]
  | subscribed id => exact absurd hstream (hs id)

/-- Nothing is in flight before the stream is subscribed. -/
theorem Coherent.inFlight_nil (h : Coherent name s)
    (hs : ∀ id, s.stream ≠ .subscribed id) : inFlight s = [] :=
  inFlight_eq_nil hs (h.quiet hs)

/-- The event of a subscriber with room is the newest value. -/
theorem Coherent.set_subscribed {f : ResolvedFlag} {id : Nat}
    (h : Coherent f.name s) (hid : s.stream = .subscribed id)
    (hc : Careful f.name s (.set f)) :
    Coherent f.name { s with store := s.store.set f } := by
  obtain ⟨queue, hqueue⟩ := h.registered id hid
  have hroom := hc rfl
  rw [hid] at hroom
  dsimp only at hroom
  rw [hqueue, Option.getD_some] at hroom
  have hlast := inFlight_set_self (f := f) hid hqueue hroom
  exact {
    registered := registered_set h f
    quiet := h.quiet
    pending := by
      intro g hg
      rw [hlast] at hg
      rw [← hg]
      show (s.store.set f).get f.name = some f
      rw [FlagStore.get_set, if_pos rfl]
    cached := by
      intro hnone
      rw [hlast] at hnone
      cases hnone
    reached := by
      intro _ _
      exact .inr (by rw [hlast]; exact Option.some_ne_none f) }

/-- Without a subscriber the cache has no other value than the new one. -/
theorem Coherent.set_unsubscribed {f : ResolvedFlag} (h : Coherent f.name s)
    (hnot : ∀ id, s.stream ≠ .subscribed id)
    (hc : Careful f.name s (.set f)) :
    Coherent f.name { s with store := s.store.set f } := by
  have hroute : f.name ≠ "stream" ∧ (s.cache.lookup f.name = none ∨
      s.cache.lookup f.name = some (decodeFlag f)) := by
    have hc := hc rfl
    cases hstream : s.stream with
    | idle => rw [hstream] at hc; exact hc
    | connected => rw [hstream] at hc; exact hc
    | subscribed id => exact absurd hstream (hnot id)
  have hin : inFlight { s with store := s.store.set f } = [] :=
    inFlight_eq_nil hnot (h.quiet hnot)
  exact {
    registered := registered_set h f
    quiet := h.quiet
    pending := by
      intro g hg
      rw [hin] at hg
      cases hg
    cached := by
      intro _ g hg
      show ((s.store.set f).get f.name).map decodeFlag = some g
      rw [FlagStore.get_set, if_pos rfl]
      rcases hroute.2 with hnone | hsame
      · rw [hnone] at hg
        cases hg
      · rw [← hg, hsame]
        rfl
    reached := fun hname => absurd hname hroute.1 }

theorem Coherent.set_other (h : Coherent name s) {f : ResolvedFlag}
    (hname : f.name ≠ name) :
    Coherent name { s with store := s.store.set f } := by
  have hget : (s.store.set f).get name = s.store.get name := by
    rw [FlagStore.get_set, if_neg (Ne.symm hname)]
  exact h.move hget rfl (inFlight_set name hname) (registered_set h f)
    h.quiet

theorem Coherent.set (h : Coherent name s) {f : ResolvedFlag}
    (hc : Careful name s (.set f)) :
    Coherent name { s with store := s.store.set f } := by
  by_cases hname : f.name = name
  · subst hname
    by_cases hsub : ∃ id, s.stream = .subscribed id
    · obtain ⟨id, hid⟩ := hsub
      exact h.set_subscribed hid hc
    · exact h.set_unsubscribed (not_exists.mp hsub) hc
  · exact h.set_other hname

theorem Coherent.delete (h : Coherent name s) {other : String}
    (hc : Careful name s (.delete other)) :
    Coherent name { s with store := s.store.delete other } := by
  by_cases hname : other = name
  · subst hname
    have hunknown := not_or.mp (hc rfl)
    have hcache := not_not.mp hunknown.1
    have hin := not_not.mp hunknown.2
    exact {
      registered := h.registered
      quiet := h.quiet
      pending := by
        intro f hf
        rw [inFlight_delete, hin] at hf
        cases hf
      cached := by
        intro _ g hg
        rw [hcache] at hg
        cases hg
      reached := by
        intro _ hne
        refine absurd ?_ hne
        show (s.store.delete other).get other = none
        rw [FlagStore.get_delete, if_pos rfl] }
  · refine h.move ?_ rfl rfl h.registered h.quiet
    rw [FlagStore.get_delete, if_neg (Ne.symm hname)]

theorem Coherent.cacheStore (h : Coherent name s) {other : String} {f : Flag}
    {rs : List (String × Flag)} (hc : Careful name s (.cacheStore other f)) :
    Coherent name
      { s with cache := s.cache.insert other f, responses := rs } where
  registered := h.registered
  quiet := h.quiet
  pending := h.pending
  cached := by
    intro hnone g hg
    dsimp only at hg
    rw [GoMap.lookup_insert] at hg
    split at hg
    · next hname =>
        cases hg
        exact (hc hname.symm).resolve_right (not_not.mpr hnone)
    · exact h.cached hnone g hg
  reached := by
    intro hname hne
    rcases h.reached hname hne with hcached | hin
    · refine .inl ?_
      dsimp only
      rw [GoMap.lookup_insert]
      split
      · exact Option.some_ne_none f
      · exact hcached
    · exact .inr hin

theorem Coherent.deliver (h : Coherent name s) {f : ResolvedFlag}
    {rest : List ResolvedFlag} (hwire : s.wire = f :: rest) :
    Coherent name { s with
      cache := s.cache.insert f.name (decodeFlag f)
      wire := rest } := by
  have hin : inFlight s = [f] ++ (rest ++ channel s) := by
    rw [inFlight, hwire]
    rfl
  have hrest : inFlight { s with
      cache := s.cache.insert f.name (decodeFlag f), wire := rest } =
      rest ++ channel s := rfl
  have hpending : ∀ g, lastNamed name (rest ++ channel s) = some g →
      s.store.get name = some g := by
    intro g hg
    refine h.pending g ?_
    rw [hin, lastNamed_append, hg]
    rfl
  -- what is read now is stored, if nothing of its name comes after it
  have hread : f.name = name → lastNamed name (rest ++ channel s) = none →
      s.store.get name = some f := by
    intro hname hnone
    refine h.pending f ?_
    rw [hin, lastNamed_append, hnone]
    simp [lastNamed, hname]
  have hskip : f.name ≠ name →
      lastNamed name (inFlight s) = lastNamed name (rest ++ channel s) := by
    intro hname
    have hone : lastNamed name [f] = none :=
      lastNamed_eq_none (by simpa using hname)
    rw [hin, lastNamed_append, hone, Option.or_none]
  exact {
    registered := h.registered
    quiet := by
      intro hnot
      have hnil := h.quiet hnot
      rw [hwire] at hnil
      cases hnil
    pending := hpending
    cached := by
      rw [hrest]
      intro hnone g hg
      dsimp only at hg
      rw [GoMap.lookup_insert] at hg
      split at hg
      · next hname =>
          cases hg
          show (s.store.get name).map decodeFlag = some (decodeFlag f)
          rw [hread hname.symm hnone]
          rfl
      · next hname =>
          exact h.cached ((hskip (Ne.symm hname)).trans hnone) g hg
    reached := by
      intro hstream hne
      rw [Known, hrest]
      by_cases hname : name = f.name
      · left
        dsimp only
        rw [GoMap.lookup_insert, if_pos hname]
        exact Option.some_ne_none _
      · rw [← hskip (Ne.symm hname)]
        dsimp only
        rw [GoMap.lookup_insert, if_neg hname]
        exact h.reached hstream hne }

theorem Coherent.send (h : Coherent name s) {id : Nat} {f : ResolvedFlag}
    {queue : List ResolvedFlag} (hs : s.stream = .subscribed id)
    (hqueue : s.store.channel id = some (f :: queue)) :
    Coherent name
      { s with store := s.store.leave id queue, wire := s.wire ++ [f] } := by
  have hleft : (s.store.leave id queue).channel id = some queue := by
    rw [FlagStore.channel_leave, hqueue]
    rfl
  refine h.move rfl rfl (congrArg _ ?_) ?_ fun hnone => absurd hs (hnone id)
  · unfold inFlight channel
    rw [hs]
    dsimp only
    rw [hleft, hqueue, Option.getD_some, Option.getD_some, List.append_assoc]
    rfl
  · intro id' hid
    dsimp only at hid
    rw [hs] at hid
    cases hid
    exact ⟨queue, hleft⟩

theorem Coherent.connect (h : Coherent name s) (hs : s.stream = .idle) :
    Coherent name { s with stream := .connected } := by
  have hnot : ∀ id, s.stream ≠ .subscribed id := by simp [hs]
  refine h.move rfl rfl (congrArg _ ?_) ?_ fun _ => h.quiet hnot
  · rw [h.inFlight_nil hnot]
    show s.wire ++ [] = []
    rw [h.quiet hnot]
    rfl
  · intro id hid
    cases hid

theorem Coherent.subscribe (h : Coherent name s) (hs : s.stream = .connected) :
    Coherent name { s with
      store := s.store.subscribe, stream := .subscribed s.store.nextId } := by
  have hnot : ∀ id, s.stream ≠ .subscribed id := by simp [hs]
  refine h.move rfl rfl (congrArg _ ?_) ?_ ?_
  · rw [h.inFlight_nil hnot]
    show s.wire ++ (s.store.subscribe.channel s.store.nextId).getD [] = []
    rw [FlagStore.channel_subscribe, h.quiet hnot]
    rfl
  · intro id hid
    cases hid
    exact ⟨[], FlagStore.channel_subscribe s.store⟩
  · intro hnone
    exact absurd rfl (hnone s.store.nextId)

theorem Coherent.step {a : Act} (h : Coherent name s) (hc : Careful name s a)
    (hstep : Step s a s') : Coherent name s' := by
  cases a with
  | set f =>
      cases hstep
      exact h.set hc
  | delete other =>
      cases hstep
      exact h.delete hc
  | lookup other =>
      unfold Step next at hstep
      dsimp only at hstep
      split at hstep
      · cases hstep
        exact h
      · cases hstep
        exact h.frame rfl rfl rfl rfl
  | respond other r =>
      unfold Step next at hstep
      dsimp only at hstep
      split at hstep
      · cases hstep
        exact h.frame rfl rfl rfl rfl
      · cases hstep
  | cacheStore other f =>
      unfold Step next at hstep
      dsimp only at hstep
      split at hstep
      · cases hstep
        exact h.cacheStore hc
      · cases hstep
  | connect =>
      obtain ⟨hidle, rfl⟩ := hstep.connect
      exact h.connect hidle
  | subscribe =>
      obtain ⟨hconnected, rfl⟩ := hstep.subscribe
      exact h.subscribe hconnected
  | send =>
      obtain ⟨id, f, queue, hid, hqueue, rfl⟩ := hstep.send
      exact h.send hid hqueue
  | deliver =>
      obtain ⟨f, rest, hwire, rfl⟩ := hstep.deliver
      exact h.deliver hwire

theorem coherent_run {as : List Act}
    (h : Run (Restrict Step (Careful name)) {} as s) : Coherent name s :=
  h.invariant (fun _ _ _ hI hstep => hI.step hstep.2 hstep.1)
    (coherent_empty name)

/-! ## Coherence -/

/-- When the stream is subscribed and everything in flight has been consumed,
`GetFlag` agrees with the sidecar on every name whose steps were careful. -/
theorem cache_coherent {as : List Act}
    (hrun : Run (Restrict Step (Careful name)) {} as s) (hsettled : Settled s)
    (hname : ObjectName name) : Agrees s name := by
  have h := coherent_run hrun
  obtain ⟨_, hin, _⟩ := hsettled
  have hnone : lastNamed name (inFlight s) = none := by
    rw [hin]
    rfl
  intro r hr
  unfold Returns at hr
  cases hcache : s.cache.lookup name with
  | some g =>
      rw [hcache] at hr
      rw [h.cached hnone g hcache]
      exact hr
  | none =>
      rw [hcache] at hr
      rw [hr hname, handleFlag]
      cases hget : s.store.get name with
      | none =>
          split
          · rfl
          · rfl
      | some f =>
          have hroute : name ≠ "stream" := by
            intro hstream
            have hknown : Known name s := by
              refine h.reached hstream ?_
              rw [hget]
              exact Option.some_ne_none f
            rcases hknown with hcached | hpending
            · exact hcached hcache
            · exact hpending hnone
          rw [if_neg hroute]
          rfl

/-! ## Runs

The condition can be evaluated, so a run that meets it is found by computing. -/

instance (name : String) (s : State) (a : Act) :
    Decidable (Careful name s a) :=
  match a with
  | .set f =>
      let : Decidable (match s.stream with
          | .subscribed id =>
              ((s.store.channel id).getD []).length < channelCapacity
          | .idle | .connected => name ≠ "stream" ∧
              (s.cache.lookup name = none ∨
                s.cache.lookup name = some (decodeFlag f))) :=
        match s.stream with
        | .subscribed _ => inferInstanceAs (Decidable (_ < _))
        | .idle => inferInstanceAs (Decidable (_ ∧ _))
        | .connected => inferInstanceAs (Decidable (_ ∧ _))
      inferInstanceAs (Decidable (f.name = name → _))
  | .delete _ => inferInstanceAs (Decidable (_ = _ → ¬ _))
  | .cacheStore _ _ => inferInstanceAs (Decidable (_ = _ → _ ∨ _))
  | .lookup _ | .respond _ _ | .connect | .subscribe | .send | .deliver =>
      inferInstanceAs (Decidable True)

instance (s : State) : Decidable (Settled s) :=
  let : Decidable (∃ id, s.stream = .subscribed id) :=
    match h : s.stream with
    | .subscribed id => .isTrue ⟨id, rfl⟩
    | .idle => .isFalse (by simp)
    | .connected => .isFalse (by simp)
  inferInstanceAs (Decidable (_ ∧ _ ∧ _))

/-- A careful step, as a function. -/
def nextCareful (name : String) (s : State) (a : Act) : Option State :=
  if Careful name s a then next s a else none

theorem step_of_nextCareful (name : String) (s : State) (a : Act)
    (s' : State) (h : nextCareful name s a = some s') :
    Restrict Step (Careful name) s a s' := by
  unfold nextCareful at h
  split at h
  · next hc => exact ⟨h, hc⟩
  · cases h

def darkMode (value : String) : ResolvedFlag :=
  ⟨"dark-mode", "boolean", value, false, ""⟩

/-- A fetch from start to end. -/
def fetch (f : ResolvedFlag) : List Act :=
  [.lookup f.name, .respond f.name (some (decodeFlag f)),
    .cacheStore f.name (decodeFlag f)]

/-- A flag that is fetched, and edited when the stream is there. -/
def editedLive : List Act :=
  .set (darkMode "false") :: fetch (darkMode "false") ++
    [.connect, .subscribe, .set (darkMode "true"), .send, .deliver]

theorem cache_coherent_sample :
    ∃ s, Run (Restrict Step (Careful "dark-mode")) {} editedLive s ∧
      Settled s ∧ Agrees s "dark-mode" := by
  have hend : (steps (nextCareful "dark-mode") editedLive {}).any
      (fun s => Settled s) = true := by
    decide +kernel
  obtain ⟨s, hs, hsettled⟩ := Option.any_eq_true _ _ |>.mp hend
  have hrun := run_of_steps (step_of_nextCareful "dark-mode") hs
  have hsettled := of_decide_eq_true hsettled
  have hname : ObjectName "dark-mode" := by decide +kernel
  exact ⟨s, hrun, hsettled, cache_coherent hrun hsettled hname⟩

/-- A flag that is deleted after the SDK has seen it. -/
def deletedLive : List Act :=
  .set (darkMode "true") :: fetch (darkMode "true") ++
    [.connect, .subscribe, .delete "dark-mode"]

/-- A flag that is edited after a fetch and before the stream is there. -/
def editedEarly : List Act :=
  .set (darkMode "false") :: fetch (darkMode "false") ++
    [.set (darkMode "true"), .connect, .subscribe]

/-- A run that ends settled, with this in the store and that in the cache. -/
theorem disagrees {as : List Act} {f : Flag} {stored : Option ResolvedFlag}
    (hend : (steps next as {}).any (fun s => Settled s ∧
      s.store.get name = stored ∧ s.cache.lookup name = some f) = true)
    (hne : some f ≠ stored.map decodeFlag) :
    ∃ s, Run Step {} as s ∧ Settled s ∧ s.store.get name = stored ∧
      Returns s name (some f) ∧ ¬ Agrees s name := by
  obtain ⟨s, hs, hend⟩ := Option.any_eq_true _ _ |>.mp hend
  obtain ⟨hsettled, hstored, hcached⟩ := of_decide_eq_true hend
  have hreturns : Returns s name (some f) := by
    unfold Returns
    rw [hcached]
  have hrun : Run Step {} as s := run_of_steps (fun _ _ _ => id) hs
  refine ⟨s, hrun, hsettled, hstored, hreturns, ?_⟩
  intro hagrees
  have hsame := hagrees _ hreturns
  rw [hstored] at hsame
  exact hne hsame

/-- The SDK goes on with a flag that is gone, and with a value that is old. -/
theorem deleted_flag_served :
    (∃ s, Run Step {} deletedLive s ∧ Settled s ∧
      s.store.get "dark-mode" = none ∧
      Returns s "dark-mode" (some (decodeFlag (darkMode "true"))) ∧
      ¬ Agrees s "dark-mode") ∧
    ∃ s, Run Step {} editedEarly s ∧ Settled s ∧
      s.store.get "dark-mode" = some (darkMode "true") ∧
      Returns s "dark-mode" (some (decodeFlag (darkMode "false"))) ∧
      ¬ Agrees s "dark-mode" :=
  ⟨disagrees (by decide +kernel) (by decide),
    disagrees (by decide +kernel) (by decide)⟩

end Vexil.Sdk.Provider
