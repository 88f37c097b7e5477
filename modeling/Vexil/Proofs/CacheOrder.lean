import Vexil.Sdk.Versions

/-!
# The cache does not go back

Events reach the cache in the order of the `Set`s: there is one watcher, one
channel and one connection, and an event that is lost leaves a gap but not a
disorder. So what is under way ascends, and none of it is older than what the
cache has (`Ordered`). The stream alone never takes the cache back.

A response does not queue up with the events. It can be overtaken by an event,
or by another response, and take the cache back when it is stored; and it can
overtake an event, which takes the cache back when it arrives. A response that
does neither keeps the order, and with all responses so no run ever takes a flag
back (`version_mono`).
-/

namespace Vexil.Sdk.Versions

open Vexil.Lib Vexil.Sidecar

/-! ## The condition on steps -/

/-- The condition. A response is stored in its place: the cache has nothing
newer, and no older event of the flag is still in flight. -/
def InPlace (s : State) : Act → Prop
  | .cacheStore name f =>
      (∀ n ∈ version s name, n ≤ f.2) ∧
        ∀ e ∈ inFlight s, e.1.name = name → f.2 ≤ e.2
  | .write _ | .broadcast | .delete _ | .lookup _ | .respond _ _ | .lookupAll
  | .respondAll _ | .connect | .subscribe | .send | .deliver | .disconnect =>
      True

/-! ## The invariant -/

/-- What comes to the cache by the stream: the events in flight, and the one
that is about to be broadcast. -/
def coming (s : State) : List (Stamped ResolvedFlag) :=
  inFlight s ++ s.unsent.toList

/-- The events ascend and none is older than the cache. -/
structure Ordered (s : State) : Prop where
  ascending : (coming s).Pairwise fun a b => a.2 ≤ b.2
  ahead : ∀ e ∈ coming s, ∀ n ∈ version s e.1.name, n ≤ e.2
  past : ∀ e ∈ coming s, e.2 ≤ s.sets
  unsent : ∀ e ∈ s.unsent, e.2 = s.sets
  flags : ∀ f ∈ all s, f.2 ≤ s.sets
  responses : ∀ r ∈ s.responses, r.2.2 ≤ s.sets
  cached : ∀ name, ∀ n ∈ version s name, n ≤ s.sets

variable {s s' : State}

theorem ordered_empty : Ordered {} where
  ascending := .nil
  ahead _ he := by cases he
  past _ he := by cases he
  unsent _ he := by cases he
  flags _ hf := by cases hf
  responses _ hr := by cases hr
  cached name n hn := by
    rw [version, Finmap.lookup_empty] at hn
    cases hn

/-- A step that changes neither the store nor the cache, and loses events. -/
theorem Ordered.lose (h : Ordered s) (hflags : s'.flags = s.flags)
    (hsets : s'.sets = s.sets) (hcache : s'.cache = s.cache)
    (hcoming : (coming s').Sublist (coming s))
    (hunsent : ∀ e ∈ s'.unsent, e ∈ s.unsent)
    (hresponses : ∀ r ∈ s'.responses, r.2.2 ≤ s.sets) : Ordered s' where
  ascending := h.ascending.sublist hcoming
  ahead e he := by
    rw [version, hcache]
    exact h.ahead e (hcoming.mem he)
  past e he := by
    rw [hsets]
    exact h.past e (hcoming.mem he)
  unsent e he := by
    rw [hsets]
    exact h.unsent e (hunsent e he)
  flags := by
    rw [all, hflags, hsets]
    exact h.flags
  responses := by
    rw [hsets]
    exact hresponses
  cached := by
    rw [hsets]
    intro name n hn
    rw [version, hcache] at hn
    exact h.cached name n hn

theorem mem_all {f : Stamped ResolvedFlag} :
    f ∈ all s ↔ ∃ name, s.flags.lookup name = some f := by
  rw [all, Multiset.mem_map]
  constructor
  · rintro ⟨⟨name, g⟩, hmem, rfl⟩
    exact ⟨name, Finmap.mem_lookup_iff.mpr hmem⟩
  · rintro ⟨name, h⟩
    exact ⟨⟨name, f⟩, Finmap.mem_lookup_iff.mp h, rfl⟩

theorem version_insert (s : State) (name other : String) (f : Stamped Flag) :
    version { s with cache := s.cache.insert name f } other =
      if other = name then some f.2 else version s other := by
  rw [version, GoMap.lookup_insert]
  split
  · rfl
  · rfl

/-! ## The steps -/

theorem ordered_write {f : ResolvedFlag} (h : Ordered s)
    (hunsent : s.unsent = none) :
    Ordered { s with
      flags := s.flags.insert f.name (f, s.sets + 1)
      sets := s.sets + 1
      unsent := some (f, s.sets + 1) } := by
  have hcoming : coming s = inFlight s := by
    rw [coming, hunsent]
    exact List.append_nil _
  have hmem : ∀ e ∈ inFlight s ++ [(f, s.sets + 1)],
      e ∈ coming s ∨ e = (f, s.sets + 1) := by
    intro e he
    rw [hcoming]
    simpa using he
  constructor
  · show (inFlight s ++ [(f, s.sets + 1)]).Pairwise _
    rw [← hcoming, List.pairwise_append]
    refine ⟨h.ascending, List.pairwise_singleton .., fun e he e' he' => ?_⟩
    obtain rfl := List.mem_singleton.mp he'
    exact Nat.le_succ_of_le (h.past e he)
  · intro e he n hn
    rcases hmem e he with he | rfl
    · exact h.ahead e he n hn
    · exact Nat.le_succ_of_le (h.cached _ n hn)
  · intro e he
    rcases hmem e he with he | rfl
    · exact Nat.le_succ_of_le (h.past e he)
    · exact Nat.le_refl _
  · rintro _ ⟨⟩
    rfl
  · intro g hg
    obtain ⟨name, hname⟩ := mem_all.mp hg
    rw [GoMap.lookup_insert] at hname
    split at hname
    · cases hname
      exact Nat.le_refl _
    · exact Nat.le_succ_of_le (h.flags g (mem_all.mpr ⟨name, hname⟩))
  · exact fun r hr => Nat.le_succ_of_le (h.responses r hr)
  · exact fun name n hn => Nat.le_succ_of_le (h.cached name n hn)

theorem ordered_broadcast {f : Stamped ResolvedFlag} (h : Ordered s)
    (hunsent : s.unsent = some f) :
    Ordered { s with unsent := none, stream := s.stream.offer f } := by
  have hcoming : coming s = inFlight s ++ [f] := by
    rw [coming, hunsent]
    rfl
  refine h.lose rfl rfl rfl ?_ (fun _ he => by cases he) h.responses
  rw [hcoming, coming, inFlight, inFlight]
  dsimp only
  rw [Option.toList_none, List.append_nil, List.append_assoc]
  refine (List.Sublist.refl s.wire).append ?_
  cases s.stream with
  | idle => exact List.nil_sublist _
  | connected => exact List.nil_sublist _
  | subscribed queue =>
      show (if _ then queue ++ [f] else queue).Sublist (queue ++ [f])
      split
      · exact .refl _
      · exact List.sublist_append_left ..

theorem ordered_delete (h : Ordered s) (name : String) :
    Ordered { s with flags := s.flags.erase name } where
  ascending := h.ascending
  ahead := h.ahead
  past := h.past
  unsent := h.unsent
  flags f hf := by
    obtain ⟨other, hother⟩ := mem_all.mp hf
    rw [GoMap.lookup_erase] at hother
    split at hother
    · cases hother
    · exact h.flags f (mem_all.mpr ⟨other, hother⟩)
  responses := h.responses
  cached := h.cached

/-- Something is stored that is not ahead of what is still to come. -/
theorem ordered_cache {name : String} {f : Stamped Flag} (h : Ordered s)
    (hahead : ∀ e ∈ coming s, e.1.name = name → f.2 ≤ e.2)
    (hpast : f.2 ≤ s.sets) :
    Ordered { s with cache := s.cache.insert name f } where
  ascending := h.ascending
  ahead e he n hn := by
    rw [version_insert] at hn
    split at hn
    · next heq =>
        cases hn
        exact hahead e he heq
    · exact h.ahead e he n hn
  past := h.past
  unsent := h.unsent
  flags := h.flags
  responses := h.responses
  cached other n hn := by
    rw [version_insert] at hn
    split at hn
    · cases hn
      exact hpast
    · exact h.cached other n hn

/-- The next event is stored: all that is still to come is later. -/
theorem ordered_deliver {f : Stamped ResolvedFlag}
    {rest : List (Stamped ResolvedFlag)} (h : Ordered s)
    (hwire : s.wire = f :: rest) :
    Ordered { s with
      cache := s.cache.insert f.1.name (decodeFlag f.1, f.2)
      wire := rest } := by
  have hcoming : coming s = f :: coming { s with wire := rest } := by
    rw [coming, inFlight, hwire]
    rfl
  have hrest : Ordered { s with wire := rest } :=
    h.lose rfl rfl rfl (by rw [hcoming]; exact List.sublist_cons_self ..)
      (fun _ he => he) h.responses
  have hascending := h.ascending
  rw [hcoming, List.pairwise_cons] at hascending
  exact ordered_cache hrest (fun e he _ => hascending.1 e he)
    (h.past f (by rw [hcoming]; exact List.mem_cons_self))

/-- A response is stored in its place. -/
theorem ordered_cacheStore {name : String} {f : Stamped Flag} (h : Ordered s)
    (hmem : (name, f) ∈ s.responses) (hplace : InPlace s (.cacheStore name f)) :
    Ordered { s with
      cache := s.cache.insert name f
      responses := s.responses.erase (name, f) } := by
  have hpast : f.2 ≤ s.sets := h.responses _ hmem
  have hrest : Ordered { s with responses := s.responses.erase (name, f) } :=
    h.lose rfl rfl rfl (.refl _) (fun _ he => he)
      fun r hr => h.responses r (List.mem_of_mem_erase hr)
  refine ordered_cache hrest (fun e he heq => ?_) hpast
  rcases List.mem_append.mp he with he | he
  · exact hplace.2 e he heq
  · rw [h.unsent e (Option.mem_toList.mp he)]
    exact hpast

/-- The responses of a `GetFlag` and of a `GetAllFlags`. -/
theorem ordered_respond {rs : List (String × Stamped Flag)}
    {waiting : List String} {waitingAll : Nat} (h : Ordered s)
    (hrs : ∀ r ∈ rs, r.2.2 ≤ s.sets) :
    Ordered { s with
      waiting := waiting
      waitingAll := waitingAll
      responses := s.responses ++ rs } :=
  h.lose rfl rfl rfl (.refl _) (fun _ he => he)
    (List.forall_mem_append.mpr ⟨h.responses, hrs⟩)

theorem ordered_step {a : Act} (h : Ordered s)
    (hstep : Restrict Step InPlace s a s') : Ordered s' := by
  obtain ⟨hstep, hplace⟩ := hstep
  unfold Step next at hstep
  cases a with
  | write f =>
      dsimp only at hstep
      split at hstep
      · next hunsent =>
          cases hstep
          exact ordered_write h hunsent
      · cases hstep
  | broadcast =>
      dsimp only at hstep
      split at hstep
      · cases hstep
      · next f hunsent =>
          cases hstep
          exact ordered_broadcast h hunsent
  | delete name =>
      dsimp only at hstep
      split at hstep
      · cases hstep
        exact ordered_delete h name
      · cases hstep
  | lookup name =>
      dsimp only at hstep
      split at hstep
      · cases hstep
        exact h
      · cases hstep
        exact h.lose rfl rfl rfl (.refl _) (fun _ he => he) h.responses
  | respond name r =>
      dsimp only at hstep
      split at hstep
      · next hcond =>
          cases hstep
          refine ordered_respond h fun r' hr' => ?_
          obtain ⟨f, hf, rfl⟩ := List.mem_map.mp hr'
          exact hcond.2.1 f (Option.mem_toList.mp hf)
      · cases hstep
  | lookupAll =>
      cases hstep
      exact h.lose rfl rfl rfl (.refl _) (fun _ he => he) h.responses
  | respondAll fs =>
      dsimp only at hstep
      split at hstep
      · next hcond =>
          cases hstep
          refine ordered_respond h fun r' hr' => ?_
          obtain ⟨f, hf, rfl⟩ := List.mem_map.mp hr'
          exact h.flags f (hcond.2 ▸ hf)
      · cases hstep
  | cacheStore name f =>
      dsimp only at hstep
      split at hstep
      · next hmem =>
          cases hstep
          exact ordered_cacheStore h hmem hplace
      · cases hstep
  | connect | subscribe =>
      dsimp only at hstep
      split at hstep
      · next hstream =>
          cases hstep
          refine h.lose rfl rfl rfl ?_ (fun _ he => he) h.responses
          rw [coming, coming, inFlight, inFlight, hstream]
          exact .refl _
      all_goals cases hstep
  | send =>
      dsimp only at hstep
      split at hstep
      · next f queue hstream =>
          cases hstep
          refine h.lose rfl rfl rfl ?_ (fun _ he => he) h.responses
          rw [coming, coming, inFlight, inFlight, hstream]
          simp [Stream.queue]
      all_goals cases hstep
  | deliver =>
      dsimp only at hstep
      split at hstep
      · cases hstep
      · next f rest hwire =>
          cases hstep
          exact ordered_deliver h hwire
  | disconnect =>
      cases hstep
      refine h.lose rfl rfl rfl ?_ (fun _ he => he) h.responses
      exact List.sublist_append_right ..

/-! ## The runs -/

/-- No flag of the cache has a smaller version than before. -/
def NotBack (s s' : State) : Prop :=
  ∀ name, ∀ n ∈ version s name, ∃ n' ∈ version s' name, n ≤ n'

theorem notBack_of_cache (hcache : s'.cache = s.cache) : NotBack s s' := by
  intro name n hn
  refine ⟨n, ?_, Nat.le_refl n⟩
  rw [version, hcache]
  exact hn

theorem notBack_insert {name : String} {f : Stamped Flag}
    (hle : ∀ n ∈ version s name, n ≤ f.2)
    (hcache : s'.cache = s.cache.insert name f) : NotBack s s' := by
  intro other n hn
  have hversion : version s' other =
      if other = name then some f.2 else version s other := by
    rw [← version_insert, version, version, hcache]
  rw [hversion]
  split
  · next heq =>
      subst heq
      exact ⟨f.2, rfl, hle n hn⟩
  · exact ⟨n, hn, Nat.le_refl n⟩

/-- Two steps write to the cache. -/
theorem cache_step {a : Act} (hstep : Step s a s') :
    s'.cache = s.cache ∨
      (∃ name f, a = .cacheStore name f ∧
        s'.cache = s.cache.insert name f) ∨
      ∃ f ∈ inFlight s,
        s'.cache = s.cache.insert f.1.name (decodeFlag f.1, f.2) := by
  unfold Step next at hstep
  cases a with
  | cacheStore name f =>
      dsimp only at hstep
      split at hstep
      · cases hstep
        exact .inr (.inl ⟨name, f, rfl, rfl⟩)
      · cases hstep
  | deliver =>
      dsimp only at hstep
      split at hstep
      · cases hstep
      · next f rest hwire =>
          cases hstep
          have hmem : f ∈ s.wire := hwire ▸ List.mem_cons_self
          exact .inr (.inr ⟨f, List.mem_append_left _ hmem, rfl⟩)
  | lookupAll | disconnect =>
      cases hstep
      exact .inl rfl
  | write _ | broadcast | delete _ | lookup _ | respond _ _ | respondAll _
  | connect | subscribe | send =>
      dsimp only at hstep
      split at hstep
      all_goals first
        | (cases hstep; exact .inl rfl)
        | cases hstep

theorem notBack_step {a : Act} (h : Ordered s)
    (hstep : Restrict Step InPlace s a s') : NotBack s s' := by
  obtain ⟨hstep, hplace⟩ := hstep
  rcases cache_step hstep with hcache | ⟨name, f, rfl, hcache⟩ |
    ⟨f, hf, hcache⟩
  · exact notBack_of_cache hcache
  · exact notBack_insert hplace.1 hcache
  · exact notBack_insert (h.ahead f (List.mem_append_left _ hf)) hcache

theorem ordered_run {acts : List Act} (h : Ordered s)
    (hrun : Run (Restrict Step InPlace) s acts s') : Ordered s' := by
  induction hrun with
  | nil => exact h
  | cons hstep _ ih => exact ih (ordered_step h hstep)

theorem notBack_run {acts : List Act} (h : Ordered s)
    (hrun : Run (Restrict Step InPlace) s acts s') : NotBack s s' := by
  induction hrun with
  | nil => exact notBack_of_cache rfl
  | cons hstep _ ih =>
      intro name n hn
      obtain ⟨n', hn', hle⟩ := notBack_step h hstep name n hn
      obtain ⟨n'', hn'', hle'⟩ := ih (ordered_step h hstep) name n' hn'
      exact ⟨n'', hn'', Nat.le_trans hle hle'⟩

/-- In a run that stores every response in its place no flag of the cache ever
has a smaller version than it had before. -/
theorem version_mono {acts acts' : List Act}
    (hrun : Run (Restrict Step InPlace) {} acts s)
    (hrun' : Run (Restrict Step InPlace) s acts' s') : NotBack s s' :=
  notBack_run (ordered_run ordered_empty hrun) hrun'

/-! A flag is set twice, and a `GetFlag` takes its response between the two. It
is stored before the second event arrives, or after it. -/

instance : ∀ s a, Decidable (InPlace s a)
  | s, .cacheStore .. =>
      @instDecidableAnd _ _ (Option.decidableForallMem _)
        (inferInstanceAs (Decidable (∀ e ∈ inFlight s, _)))
  | _, .write _ | _, .broadcast | _, .delete _ | _, .lookup _ | _, .respond _ _
  | _, .lookupAll | _, .respondAll _ | _, .connect | _, .subscribe | _, .send
  | _, .deliver | _, .disconnect => isTrue trivial

def setTo (value : String) : ResolvedFlag :=
  ⟨"dark-mode", "boolean", value, false, ""⟩

def firstAnswer : Stamped Flag := (decodeFlag (setTo "false"), 1)

/-- The first `Set`, the stream, and a `GetFlag` as far as its response. -/
def answered : List Act :=
  [.write (setTo "false"), .broadcast, .connect, .subscribe,
    .lookup "dark-mode", .respond "dark-mode" (some firstAnswer)]

/-- The second `Set`, all the way to the cache. -/
def setAgain : List Act :=
  [.write (setTo "true"), .broadcast, .send, .deliver]

/-- The response is stored. -/
def storeAnswer : Act := .cacheStore "dark-mode" firstAnswer

theorem version_mono_sample :
    ∃ s s', Run (Restrict Step InPlace) {} (answered ++ [storeAnswer]) s ∧
      Run (Restrict Step InPlace) s setAgain s' ∧
      version s "dark-mode" = some 1 ∧ version s' "dark-mode" = some 2 ∧
      NotBack s s' := by
  have hend : (steps (nextWhere InPlace next) (answered ++ [storeAnswer])
      {}).any (fun s => version s "dark-mode" = some 1 ∧
        (steps (nextWhere InPlace next) setAgain s).any fun s' =>
          version s' "dark-mode" = some 2) = true := by
    decide +kernel
  obtain ⟨s, hs, hend⟩ := Option.any_eq_true _ _ |>.mp hend
  obtain ⟨hversion, hend⟩ := of_decide_eq_true hend
  obtain ⟨s', hs', hversion'⟩ := Option.any_eq_true _ _ |>.mp hend
  have hrun := run_of_stepsWhere (fun _ _ _ => id) hs
  have hrun' := run_of_stepsWhere (fun _ _ _ => id) hs'
  exact ⟨s, s', hrun, hrun', hversion, of_decide_eq_true hversion',
    version_mono hrun hrun'⟩

/-- The late response takes the cache back. -/
theorem late_response_goes_back :
    ∃ s s', Run Step {} (answered ++ setAgain) s ∧ Step s storeAnswer s' ∧
      version s "dark-mode" = some 2 ∧ version s' "dark-mode" = some 1 := by
  have hend : (steps next (answered ++ setAgain) {}).any (fun s =>
      version s "dark-mode" = some 2 ∧
        (next s storeAnswer).any fun s' =>
          version s' "dark-mode" = some 1) = true := by
    decide +kernel
  obtain ⟨s, hs, hend⟩ := Option.any_eq_true _ _ |>.mp hend
  obtain ⟨hversion, hend⟩ := of_decide_eq_true hend
  obtain ⟨s', hs', hversion'⟩ := Option.any_eq_true _ _ |>.mp hend
  exact ⟨s, s', run_of_steps (fun _ _ _ => id) hs, hs', hversion,
    of_decide_eq_true hversion'⟩

end Vexil.Sdk.Versions
