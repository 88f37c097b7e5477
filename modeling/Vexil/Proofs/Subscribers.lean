import Vexil.Sidecar.Streams

/-!
# What subscribers get

Two things are wanted of the subscribers of the flag store. Nothing goes wrong
in the registry, whoever comes and goes while flags are set; and a subscriber
that keeps up gets to know the store.

The first is the hub's, for every order of the sections: `registry_safe`. A
subscriber gets what is broadcast while it is subscribed, in that order and none
of it twice, except for what it was too slow for and what was still in its
channel when it left.

The second needs the writer too. `Set`s are made one after another, by the
goroutine of the watcher, so the last flag that was broadcast under a name is
the one in the store (`InStep`). If it found room in a channel that is empty
now, it was received, and no later event has its name: `subscriber_fresh`.
-/

namespace Vexil.Sidecar

open Vexil.Lib

namespace Streams

/-! ## Events of a run -/

/-- The events a subscriber received. -/
def receivedBy (k : Nat) (as : List Act) : List FlagEvent :=
  Hub.received k (hubActs 0 as)

/-- The flags broadcast between its `Subscribe` and its `Unsubscribe`. -/
def broadcastTo (k : Nat) (as : List Act) : List FlagEvent :=
  Hub.window k false (hubActs 0 as)

/-- Not a broadcast that finds the subscriber's channel full. -/
def NeverFull (k : Nat) (s : Streams) (a : Act) : Prop :=
  ∀ f, a = .broadcast f → k ∈ s.hub.members →
    (s.hub.buffer k).length < channelCapacity

theorem broadcasts_run {s s' : Streams} {as : List Act}
    (h : Run Step s as s') : s'.broadcasts = as.foldl counted s.broadcasts := by
  induction h with
  | nil => rfl
  | cons hstep _ ih => rw [ih, (did_of_step hstep).broadcasts, List.foldl_cons]

theorem hubActs_append (n : Nat) (as bs : List Act) :
    hubActs n (as ++ bs) =
      hubActs n as ++ hubActs (as.foldl counted n) bs := by
  induction as generalizing n with
  | nil => rfl
  | cons a as ih =>
      rw [List.cons_append, hubActs, hubActs, List.foldl_cons]
      cases hubAct n a with
      | none => exact ih _
      | some b =>
          dsimp only
          rw [ih, List.cons_append]

/-- What is broadcast is numbered in order, and is a flag of a `Set`. -/
theorem window_numbered (k n : Nat) (inside : Bool) (as : List Act) :
    (∀ e ∈ Hub.window k inside (hubActs n as),
        n ≤ e.serial ∧ .broadcast e.flag ∈ as) ∧
      ((Hub.window k inside (hubActs n as)).map FlagEvent.serial).Pairwise
        (· < ·) := by
  induction as generalizing n inside with
  | nil => exact ⟨fun e he => (by cases he), .nil⟩
  | cons a as ih =>
      have hmono : ∀ inside n', n ≤ n' →
          (∀ e ∈ Hub.window k inside (hubActs n' as),
            n ≤ e.serial ∧ .broadcast e.flag ∈ a :: as) ∧
          ((Hub.window k inside (hubActs n' as)).map FlagEvent.serial).Pairwise
            (· < ·) := by
        intro inside n' hn
        obtain ⟨hmem, hpair⟩ := ih n' inside
        refine ⟨fun e he => ?_, hpair⟩
        obtain ⟨hle, hin⟩ := hmem e he
        exact ⟨hn.trans hle, .tail _ hin⟩
      cases a with
      | write f => exact hmono inside n le_rfl
      | delete name => exact hmono inside n le_rfl
      | subscribe j => exact hmono _ n le_rfl
      | unsubscribe j => exact hmono _ n le_rfl
      | receive j e => exact hmono inside n le_rfl
      | close j => exact hmono inside n le_rfl
      | broadcast f =>
          have hrest := hmono inside (n + 1) (Nat.le_succ n)
          show (∀ e ∈ Hub.window k inside (.send ⟨n, f⟩ :: hubActs (n + 1) as),
              n ≤ e.serial ∧ _) ∧ ((Hub.window k inside
                (.send ⟨n, f⟩ :: hubActs (n + 1) as)).map _).Pairwise _
          rw [Hub.window]
          split
          · refine ⟨List.forall_mem_cons.mpr ⟨⟨le_rfl, .head _⟩, hrest.1⟩, ?_⟩
            rw [List.map_cons, List.pairwise_cons]
            refine ⟨fun n' hn' => ?_, hrest.2⟩
            obtain ⟨e, he, rfl⟩ := List.mem_map.mp hn'
            exact ((ih (n + 1) inside).1 e he).1
          · exact hrest

/-! ## The registry -/

theorem orderly_run {as : List Act} {s : Streams} (h : Run Step {} as s) :
    Hub.Orderly channelCapacity s.hub :=
  (Hub.orderly_empty channelCapacity).run (hub_run' h)

theorem no_panic {s : Streams} (h : Hub.Orderly channelCapacity s.hub)
    (a : Act) : s.act a ≠ .panic := by
  intro hp
  cases a with
  | write f => cases hp
  | delete name => cases hp
  | broadcast f =>
      unfold act at hp
      dsimp only at hp
      split at hp
      · exact h.no_panic _ (onHub_panic hp)
      · cases hp
  | subscribe k => exact h.no_panic _ (onHub_panic hp)
  | receive k e => exact h.no_panic _ (onHub_panic hp)
  | unsubscribe k => exact h.no_panic _ (onHub_panic hp)
  | close k => exact h.no_panic _ (onHub_panic hp)

/-- In every run no step panics, no channel holds more than it can, and a
subscriber receives a subsequence of the flags broadcast while it is subscribed,
none of them twice. If its channel was never full at a broadcast, these are all
that have not been received. -/
theorem registry_safe {as : List Act} {s : Streams} (h : Run Step {} as s) :
    (∀ a, s.act a ≠ .panic) ∧
    (∀ k, (s.hub.buffer k).length ≤ channelCapacity) ∧
    ∀ k, (receivedBy k as).Sublist (broadcastTo k as) ∧
      ((receivedBy k as).map FlagEvent.serial).Nodup ∧
      (Run (Restrict Step (NeverFull k)) {} as s →
        receivedBy k as ++ s.hub.buffer k = broadcastTo k as) := by
  have hI := orderly_run h
  refine ⟨no_panic hI, hI.length_le, fun k => ?_⟩
  obtain ⟨kept, hkept, hsub, hall⟩ := Hub.fifo (k := k) (hub_run' h)
  rw [show (({} : Streams).hub.buffer k) = [] from rfl, List.nil_append] at hkept
  have hsub' : (receivedBy k as).Sublist (broadcastTo k as) := by
    refine List.Sublist.trans ?_ hsub
    rw [← hkept]
    exact List.sublist_append_left _ _
  refine ⟨hsub', ?_, fun hfull => ?_⟩
  · have hpair := (window_numbered k 0 false as).2.imp Nat.ne_of_lt
    exact hpair.sublist (hsub'.map FlagEvent.serial)
  · refine hkept.trans (hall (hub_run (hfull.mono fun m a m' hs => ?_)))
    refine ⟨hs.1, fun b hb => ?_⟩
    cases a with
    | broadcast f =>
        cases hb
        exact hs.2 f rfl
    | subscribe j => cases hb; trivial
    | receive j e => cases hb; trivial
    | unsubscribe j => cases hb; trivial
    | close j => cases hb; trivial
    | write f => cases hb
    | delete name => cases hb

/-! A subscriber that goes away before it has read its one event. -/

def darkMode (value : String) : ResolvedFlag where
  name := "dark-mode"
  type := "boolean"
  value := value
  disabled := false
  description := ""

def earlyExit : List Act :=
  [.subscribe 0, .write (darkMode "true"), .broadcast (darkMode "true"),
    .unsubscribe 0, .close 0]

theorem earlyExit_run :
    ∃ s, Run (Restrict Step (NeverFull 0)) {} earlyExit s := by
  refine ⟨_, .cons ⟨rfl, ?_⟩ (.cons ⟨rfl, ?_⟩ (.cons ⟨rfl, ?_⟩
    (.cons ⟨rfl, ?_⟩ (.cons ⟨rfl, ?_⟩ .nil))))⟩
  · intro f h
    cases h
  · intro f h
    cases h
  · intro f h _
    cases h
    decide
  · intro f h
    cases h
  · intro f h
    cases h

/-- What was broadcast to it is more than it received. -/
theorem exit_leaves_events :
    ∃ as s, Run (Restrict Step (NeverFull 0)) {} as s ∧
      receivedBy 0 as ≠ broadcastTo 0 as := by
  obtain ⟨s, hs⟩ := earlyExit_run
  exact ⟨earlyExit, s, hs, by decide⟩

theorem registry_safe_sample :
    ∃ s, Run Step {} earlyExit s ∧ (∀ a, s.act a ≠ .panic) ∧
      receivedBy 0 earlyExit ++ s.hub.buffer 0 =
        [⟨0, darkMode "true"⟩] := by
  obtain ⟨s, hs⟩ := earlyExit_run
  have hsafe := registry_safe hs.unrestrict
  exact ⟨s, hs.unrestrict, hsafe.1, (hsafe.2.2 0).2.2 hs⟩

/-! ## Freshness -/

/-- The flags of the broadcasts of a run. -/
def broadcastFlags (as : List Act) : List ResolvedFlag :=
  as.filterMap fun
    | .broadcast f => some f
    | _ => none

theorem mem_broadcastFlags {f : ResolvedFlag} {as : List Act} :
    f ∈ broadcastFlags as ↔ .broadcast f ∈ as := by
  rw [broadcastFlags, List.mem_filterMap]
  constructor
  · rintro ⟨a, ha, h⟩
    cases a with
    | broadcast g =>
        cases h
        exact ha
    | write | delete | subscribe | receive | unsubscribe | close => cases h
  · intro h
    exact ⟨.broadcast f, h, rfl⟩

theorem broadcastFlags_append (as bs : List Act) :
    broadcastFlags (as ++ bs) = broadcastFlags as ++ broadcastFlags bs :=
  List.filterMap_append

/-- The watcher handles one event after another. -/
def OneAtATime (s : Streams) : Act → Prop
  | .write _ | .delete _ => s.pending = []
  | .broadcast _ | .subscribe _ | .receive _ _ | .unsubscribe _ | .close _ =>
      True

/-- What the broadcasts have said about a flag is what is stored, apart from the
one that is under way. -/
structure InStep (as : List Act) (s : Streams) : Prop where
  pending : s.pending = [] ∨
    ∃ f, s.pending = [f] ∧ s.flags.lookup f.name = some f
  current : ∀ name f, s.flags.lookup name = some f →
    (∀ g ∈ s.pending, g.name ≠ name) →
      lastNamed name (broadcastFlags as) = some f

theorem InStep.step {as : List Act} {s s' : Streams} {a : Act}
    (h : InStep as s) (hs : Step s a s') (hone : OneAtATime s a) :
    InStep (as ++ [a]) s' := by
  have hdid := did_of_step hs
  obtain ⟨hpending, hcurrent⟩ := h
  have hsilent : broadcastFlags [a] = [] → s'.flags = s.flags →
      s'.pending = s.pending → InStep (as ++ [a]) s' := by
    intro hno hflags hpend
    refine ⟨?_, fun name f hf hout => ?_⟩
    · rw [hflags, hpend]
      exact hpending
    · rw [broadcastFlags_append, hno, List.append_nil]
      exact hcurrent name f (hflags ▸ hf) (hpend ▸ hout)
  cases a with
  | subscribe j => exact hsilent rfl hdid.flags hdid.pending
  | receive j e => exact hsilent rfl hdid.flags hdid.pending
  | unsubscribe j => exact hsilent rfl hdid.flags hdid.pending
  | close j => exact hsilent rfl hdid.flags hdid.pending
  | write f =>
      have hidle : s.pending = [] := hone
      have hflags : s'.flags = s.flags.insert f.name f := hdid.flags
      have hpend : s'.pending = [f] := by
        have hp : s'.pending = s.pending ++ [f] := hdid.pending
        rw [hp, hidle, List.nil_append]
      refine ⟨.inr ⟨f, hpend, ?_⟩, fun name g hg hout => ?_⟩
      · rw [hflags, GoMap.lookup_insert, if_pos rfl]
      · rw [hpend, List.forall_mem_singleton] at hout
        rw [hflags, GoMap.lookup_insert, if_neg (Ne.symm hout)] at hg
        have hno : broadcastFlags [Act.write f] = [] := rfl
        rw [broadcastFlags_append, hno, List.append_nil]
        exact hcurrent name g hg (by simp [hidle])
  | delete other =>
      have hidle : s.pending = [] := hone
      have hflags : s'.flags = s.flags.erase other := hdid.flags
      have hpend : s'.pending = s.pending := hdid.pending
      refine ⟨.inl (hpend.trans hidle), fun name g hg _ => ?_⟩
      rw [hflags, GoMap.lookup_erase] at hg
      split at hg
      · cases hg
      · have hno : broadcastFlags [Act.delete other] = [] := rfl
        rw [broadcastFlags_append, hno, List.append_nil]
        exact hcurrent name g hg (by simp [hidle])
  | broadcast f =>
      have hflags : s'.flags = s.flags := hdid.flags
      have hpend : s'.pending = s.pending.erase f := hdid.pending
      have hmem := hdid.was_pending f rfl
      -- it is the one that is under way
      obtain ⟨hsingle, hstored⟩ : s.pending = [f] ∧
          s.flags.lookup f.name = some f := by
        rcases hpending with hidle | ⟨g, hg, hstored⟩
        · rw [hidle] at hmem
          cases hmem
        · rw [hg, List.mem_singleton] at hmem
          subst hmem
          exact ⟨hg, hstored⟩
      refine ⟨.inl ?_, fun name g hg _ => ?_⟩
      · rw [hpend, hsingle]
        simp
      · have hlast : broadcastFlags [Act.broadcast f] = [f] := rfl
        rw [broadcastFlags_append, hlast, lastNamed_append]
        rw [hflags] at hg
        by_cases hname : f.name = name
        · subst hname
          rw [hstored] at hg
          cases hg
          simp [lastNamed]
        · have hold := hcurrent name g hg (by simpa [hsingle] using hname)
          rw [hold, lastNamed_eq_none (by simpa using hname)]
          rfl

theorem inStep_run {as : List Act} {s : Streams}
    (h : Run (Restrict Step OneAtATime) {} as s) : InStep as s := by
  refine Run.reverse_induction (P := InStep) ?_ ?_ h
  · exact ⟨.inl rfl, fun name f hf _ => by cases hf⟩
  · intro as m a s' _ hI hs
    exact hI.step hs.1 hs.2

/-- The last broadcast of a name in a run found the subscriber subscribed, with
room in its channel. -/
def LastHeard (k : Nat) (name : String) (as : List Act) : Prop :=
  ∃ pre f post m, as = pre ++ .broadcast f :: post ∧ f.name = name ∧
    (∀ g, .broadcast g ∈ post → g.name ≠ name) ∧ Run Step {} pre m ∧
    k ∈ m.hub.members ∧ (m.hub.buffer k).length < channelCapacity

/-- A subscriber that has drained its channel, while no `Set` is under way: of
every flag whose last `Set` it had room for, the last event it received carries
the stored value. -/
theorem subscriber_fresh {as : List Act} {s : Streams} {k : Nat}
    (hrun : Run (Restrict Step OneAtATime) {} as s) (hidle : s.pending = [])
    (hdrained : s.hub.buffer k = []) {name : String}
    (hlast : LastHeard k name as) {f : ResolvedFlag}
    (hf : s.flags.lookup name = some f) :
    lastNamed name ((receivedBy k as).map FlagEvent.flag) = some f := by
  have hcurrent := (inStep_run hrun).current name f hf (by simp [hidle])
  obtain ⟨pre, g, post, m, rfl, hg, hpost, hpre, hk, hroom⟩ := hlast
  have hgf : g = f := by
    rw [broadcastFlags_append] at hcurrent
    have hcons : broadcastFlags (.broadcast g :: post) =
        g :: broadcastFlags post := rfl
    rw [hcons, lastNamed_middle hg fun g' hg' =>
      hpost g' (mem_broadcastFlags.mp hg')] at hcurrent
    exact Option.some.inj hcurrent
  subst hgf
  obtain ⟨m', hpre', hrest⟩ := run_append.mp hrun.unrestrict
  have hunique : ∀ s a s₁ s₂, Step s a s₁ → Step s a s₂ → s₁ = s₂ :=
    fun _ _ _ _ => Step.unique
  obtain rfl := Run.unique hunique hpre' hpre
  -- from the broadcast on, the hub delivers it and then later ones
  obtain ⟨before, after, hreceived, hafter⟩ :=
    Hub.delivers hk hroom (hub_run' hrest) hdrained
  have hnames : ∀ g' ∈ after.map FlagEvent.flag, g'.name ≠ name := by
    intro g' hg'
    obtain ⟨e, he, rfl⟩ := List.mem_map.mp hg'
    have hmem := (window_numbered k _ true post).1 e (hafter.subset he)
    exact hpost _ hmem.2
  have hall : receivedBy k (pre ++ .broadcast g :: post) =
      receivedBy k pre ++ (before ++ ⟨m'.broadcasts, g⟩ :: after) := by
    rw [receivedBy, hubActs_append, Hub.received_append,
      ← show m'.broadcasts = pre.foldl counted 0 from broadcasts_run hpre,
      ← hreceived]
    rfl
  rw [hall, List.map_append, List.map_append, List.map_cons,
    ← List.append_assoc, lastNamed_middle hg hnames]

instance (s : Streams) (a : Act) : Decidable (OneAtATime s a) :=
  match a with
  | .write _ | .delete _ => inferInstanceAs (Decidable (s.pending = []))
  | .broadcast _ | .subscribe _ | .receive _ _ | .unsubscribe _ | .close _ =>
      inferInstanceAs (Decidable True)

/-- A step that the watcher or a handler can take, as a function. -/
def nextInTurn (s : Streams) (a : Act) : Option Streams :=
  if OneAtATime s a then s.next a else none

theorem step_of_nextInTurn (s : Streams) (a : Act) (s' : Streams)
    (h : s.nextInTurn a = some s') : Restrict Step OneAtATime s a s' := by
  unfold nextInTurn at h
  split at h
  · next hone => exact ⟨step_of_next h, hone⟩
  · cases h

/-! A subscriber that does not read until there is one event too many, and one
that reads in time. -/

def setFlag (value : String) : List Act :=
  [.write (darkMode value), .broadcast (darkMode value)]

def lagging : List Act :=
  .subscribe 0 :: ((List.replicate 64 (setFlag "true")).flatten ++
    setFlag "false" ++
    (List.range 64).map fun n => .receive 0 ⟨n, darkMode "true"⟩)

/-- The channel is drained, the flag was set, and the last event is stale. -/
theorem slow_subscriber_stale :
    ∃ as s, Run (Restrict Step OneAtATime) {} as s ∧ s.pending = [] ∧
      0 ∈ s.hub.members ∧ s.hub.buffer 0 = [] ∧
      s.flags.lookup "dark-mode" = some (darkMode "false") ∧
      lastNamed "dark-mode" ((receivedBy 0 as).map FlagEvent.flag) =
        some (darkMode "true") := by
  have hrun : (steps nextInTurn lagging {}).any (fun s => s.pending = [] ∧
      0 ∈ s.hub.members ∧ s.hub.buffer 0 = [] ∧
      s.flags.lookup "dark-mode" = some (darkMode "false")) = true := by
    decide +kernel
  obtain ⟨s, hs, hend⟩ := Option.any_eq_true _ _ |>.mp hrun
  obtain ⟨hidle, hk, hdrained, hf⟩ := of_decide_eq_true hend
  exact ⟨lagging, s, run_of_steps step_of_nextInTurn hs, hidle, hk, hdrained,
    hf, by decide +kernel⟩

def keepingUp : List Act :=
  .subscribe 0 :: (setFlag "true" ++ [.receive 0 ⟨0, darkMode "true"⟩] ++
    setFlag "false" ++ [.receive 0 ⟨1, darkMode "false"⟩])

theorem subscriber_fresh_sample :
    ∃ s, Run (Restrict Step OneAtATime) {} keepingUp s ∧
      lastNamed "dark-mode" ((receivedBy 0 keepingUp).map FlagEvent.flag) =
        some (darkMode "false") := by
  have hrun : (steps nextInTurn keepingUp {}).any (fun s => s.pending = [] ∧
      s.hub.buffer 0 = [] ∧
      s.flags.lookup "dark-mode" = some (darkMode "false")) = true := by
    decide +kernel
  obtain ⟨s, hs, hend⟩ := Option.any_eq_true _ _ |>.mp hrun
  obtain ⟨hidle, hdrained, hf⟩ := of_decide_eq_true hend
  have hheard : (steps next (keepingUp.take 5) {}).any (fun m =>
      0 ∈ m.hub.members ∧ (m.hub.buffer 0).length < channelCapacity) = true := by
    decide +kernel
  obtain ⟨m, hm, hmid⟩ := Option.any_eq_true _ _ |>.mp hheard
  obtain ⟨hk, hroom⟩ := of_decide_eq_true hmid
  have hsteps := run_of_steps step_of_nextInTurn hs
  refine ⟨s, hsteps, subscriber_fresh hsteps hidle hdrained
    ⟨keepingUp.take 5, darkMode "false", [.receive 0 ⟨1, darkMode "false"⟩], m,
      rfl, rfl, fun g hg => ?_,
      run_of_steps (fun _ _ _ => step_of_next) hm, hk, hroom⟩ hf⟩
  cases hg with
  | tail _ h => cases h

end Streams

end Vexil.Sidecar
