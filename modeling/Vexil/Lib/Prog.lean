/-!
# Programs that call out, and the paths through them

A program here is everything a piece of sequential code does to the world
outside its own local variables: it either returns, or performs one call and
goes on with whatever reply came back. Nothing is said about what a call does.
The same program can be run to completion against a state, interleaved with
other programs one call at a time, or run against an environment that fails or
answers from stale data, and the code under it is written once.

A `Path` reads a program against a list of calls and replies. It is the only
thing the semantics of later files ask of a program: a run of a system is a
list of events, and a program took part in it when the events that are its own
form a path.

`Along` is how facts about code travel to runs. It says of every call a program
can make that some property holds of the call and of the events before it, and
`Path.along` hands that back for each event of an actual path.
-/

namespace Vexil.Lib

universe u v w x y

/-- A program over calls `C`, where a call `c` is answered by an `R c`. -/
inductive Prog (C : Type u) (R : C → Type v) (α : Type w) :
    Type (max u v w) where
  | ret (a : α)
  | call (c : C) (k : R c → Prog C R α)

/-- One call with the reply it got. -/
structure Event (C : Type u) (R : C → Type v) where
  call : C
  reply : R call

namespace Prog

variable {C : Type u} {R : C → Type v} {α : Type w} {β : Type x}

/-- Run `p`, then go on with its value. -/
def bind (p : Prog C R α) (f : α → Prog C R β) : Prog C R β :=
  match p with
  | .ret a => f a
  | .call c k => .call c fun r => (k r).bind f

/-- Change the value a program returns and nothing else. -/
def map (f : α → β) (p : Prog C R α) : Prog C R β := p.bind fun a => .ret (f a)

/-- A program over some of the calls, as one over all of them. -/
def embed {D : Type y} {S : D → Type v} (f : C → D) :
    Prog C (fun c => S (f c)) α → Prog D S α
  | .ret a => .ret a
  | .call c k => .call (f c) fun r => (k r).embed f

@[simp] theorem ret_bind (a : α) (f : α → Prog C R β) :
    (Prog.ret a : Prog C R α).bind f = f a := rfl

@[simp] theorem call_bind (c : C) (k : R c → Prog C R α) (f : α → Prog C R β) :
    (Prog.call c k).bind f = .call c fun r => (k r).bind f := rfl

/-! ## Paths -/

/-- `Path p tr q`: the program `p` makes the calls of `tr`, gets the replies of
`tr`, and has `q` left to do. -/
inductive Path : Prog C R α → List (Event C R) → Prog C R α → Prop
  | nil {p : Prog C R α} : Path p [] p
  | cons {c : C} {k : R c → Prog C R α} {r : R c} {tr : List (Event C R)}
      {q : Prog C R α} : Path (k r) tr q → Path (.call c k) (⟨c, r⟩ :: tr) q

theorem path_ret {a : α} {tr : List (Event C R)} {q : Prog C R α} :
    Path (.ret a) tr q ↔ tr = [] ∧ q = .ret a := by
  constructor
  · intro h
    cases h
    exact ⟨rfl, rfl⟩
  · rintro ⟨rfl, rfl⟩
    exact .nil

theorem path_call_ret {c : C} {k : R c → Prog C R α} {tr : List (Event C R)}
    {a : α} : Path (.call c k) tr (.ret a) ↔
      ∃ r tr', tr = ⟨c, r⟩ :: tr' ∧ Path (k r) tr' (.ret a) := by
  constructor
  · intro h
    cases h with
    | cons h => exact ⟨_, _, rfl, h⟩
  · rintro ⟨r, tr', rfl, h⟩
    exact .cons h

theorem Path.append {p q s : Prog C R α} {tr tr' : List (Event C R)}
    (h : Path p tr q) (h' : Path q tr' s) : Path p (tr ++ tr') s := by
  induction h with
  | nil => exact h'
  | cons _ ih => exact .cons (ih h')

/-- Every prefix of a path is a path. -/
theorem Path.prefix_of_append {p q : Prog C R α} {tr tr' : List (Event C R)}
    (h : Path p (tr ++ tr') q) : ∃ m, Path p tr m ∧ Path m tr' q := by
  induction tr generalizing p with
  | nil => exact ⟨p, .nil, h⟩
  | cons e tr ih =>
      cases h with
      | cons h =>
          obtain ⟨m, hm, hq⟩ := ih h
          exact ⟨m, .cons hm, hq⟩

/-- A program that is always answered can be brought to its end. -/
theorem exists_path_ret (hR : ∀ c, Nonempty (R c)) (p : Prog C R α) :
    ∃ tr a, Path p tr (.ret a) := by
  induction p with
  | ret a => exact ⟨[], a, .nil⟩
  | call c k ih =>
      obtain ⟨r⟩ := hR c
      obtain ⟨tr, a, h⟩ := ih r
      exact ⟨_, a, .cons h⟩

theorem Path.bind {p : Prog C R α} {f : α → Prog C R β} {a : α}
    {tr tr' : List (Event C R)} {q : Prog C R β}
    (h : Path p tr (.ret a)) (h' : Path (f a) tr' q) :
    Path (p.bind f) (tr ++ tr') q := by
  induction tr generalizing p with
  | nil =>
      cases h with
      | nil => exact h'
  | cons e tr ih =>
      cases h with
      | cons h => exact .cons (ih h)

/-- A finished path of `p.bind f` is a finished path of `p` and then one of the
continuation it selected. -/
theorem path_bind_ret {p : Prog C R α} {f : α → Prog C R β} {b : β}
    {tr : List (Event C R)} (h : Path (p.bind f) tr (.ret b)) :
    ∃ a tr₁ tr₂, tr = tr₁ ++ tr₂ ∧ Path p tr₁ (.ret a) ∧
      Path (f a) tr₂ (.ret b) := by
  induction p generalizing tr with
  | ret a => exact ⟨a, [], tr, rfl, .nil, h⟩
  | call c k ih =>
      obtain ⟨r, tr', rfl, h'⟩ := path_call_ret.mp h
      obtain ⟨a, tr₁, tr₂, rfl, h₁, h₂⟩ := ih r h'
      exact ⟨a, _ :: tr₁, tr₂, rfl, .cons h₁, h₂⟩

/-! ## What holds along every path -/

/-- Every call `p` can make satisfies `P`, given the events before it: `h` and
then what `p` itself has seen. -/
def Along (P : List (Event C R) → C → Prop) :
    List (Event C R) → Prog C R α → Prop
  | _, .ret _ => True
  | h, .call c k => P h c ∧ ∀ r, Along P (h ++ [⟨c, r⟩]) (k r)

@[simp] theorem along_ret {P : List (Event C R) → C → Prop}
    {h : List (Event C R)} {a : α} : Along P h (.ret a : Prog C R α) := trivial

theorem along_call {P : List (Event C R) → C → Prop} {h : List (Event C R)}
    {c : C} {k : R c → Prog C R α} :
    Along P h (.call c k) ↔ P h c ∧ ∀ r, Along P (h ++ [⟨c, r⟩]) (k r) := Iff.rfl

theorem Along.mono {P Q : List (Event C R) → C → Prop}
    (hPQ : ∀ h c, P h c → Q h c) {h : List (Event C R)} {p : Prog C R α}
    (hp : Along P h p) : Along Q h p := by
  induction p generalizing h with
  | ret a => trivial
  | call c k ih => exact ⟨hPQ h c hp.1, fun r => ih r (hp.2 r)⟩

/-- Sequencing: the continuation is only asked about values `p` can return, and
about histories that extend the one `p` started from. -/
theorem Along.bind {P : List (Event C R) → C → Prop} {p : Prog C R α}
    {f : α → Prog C R β} {h : List (Event C R)} (hp : Along P h p)
    (hf : ∀ tr a, Path p tr (.ret a) → Along P (h ++ tr) (f a)) :
    Along P h (p.bind f) := by
  induction p generalizing h with
  | ret a => simpa using hf [] a .nil
  | call c k ih =>
      refine ⟨hp.1, fun r => ih r (hp.2 r) fun tr a htr => ?_⟩
      simpa using hf (⟨c, r⟩ :: tr) a (.cons htr)

theorem Path.along {P : List (Event C R) → C → Prop} {p q : Prog C R α}
    {tr h : List (Event C R)} (hpath : Path p tr q) (hp : Along P h p) :
    Along P (h ++ tr) q := by
  induction hpath generalizing h with
  | nil => simpa using hp
  | cons _ ih => simpa using ih (hp.2 _)

/-- The payoff: each event of a path satisfies the property, with exactly the
events before it as its history. -/
theorem Path.call_along {P : List (Event C R) → C → Prop} {p q : Prog C R α}
    {pre post : List (Event C R)} {e : Event C R}
    (hpath : Path p (pre ++ e :: post) q) (hp : Along P [] p) :
    P pre e.call := by
  obtain ⟨m, hm, hq⟩ := hpath.prefix_of_append
  have hm' : Along P pre m := by simpa using hm.along hp
  cases hq with
  | cons _ => exact hm'.1

/-- A program all of whose calls satisfy `P`, whatever the replies. -/
def Calls (P : C → Prop) (p : Prog C R α) : Prop := Along (fun _ c => P c) [] p

theorem along_const {P : C → Prop} {h h' : List (Event C R)} {p : Prog C R α} :
    Along (fun _ c => P c) h p ↔ Along (fun _ c => P c) h' p := by
  induction p generalizing h h' with
  | ret a => exact Iff.rfl
  | call c k ih =>
      rw [along_call, along_call]
      exact and_congr_right fun _ => forall_congr' fun r => ih r

@[simp] theorem calls_ret {P : C → Prop} {a : α} :
    Calls P (.ret a : Prog C R α) := trivial

@[simp] theorem calls_call {P : C → Prop} {c : C} {k : R c → Prog C R α} :
    Calls P (.call c k) ↔ P c ∧ ∀ r, Calls P (k r) :=
  and_congr_right fun _ => forall_congr' fun _ => along_const

theorem Path.calls {P : C → Prop} {p q : Prog C R α} {tr : List (Event C R)}
    (hpath : Path p tr q) (hp : Calls P p) : ∀ e ∈ tr, P e.call := by
  intro e he
  obtain ⟨pre, post, rfl⟩ := List.append_of_mem he
  exact hpath.call_along hp

theorem Calls.bind {P : C → Prop} {p : Prog C R α} {f : α → Prog C R β}
    (hp : Calls P p) (hf : ∀ a, Calls P (f a)) : Calls P (p.bind f) :=
  Along.bind hp fun _ a _ => along_const.mp (hf a)

theorem Calls.map {P : C → Prop} {p : Prog C R α} {f : α → β}
    (hp : Calls P p) : Calls P (p.map f) := hp.bind fun _ => trivial

theorem Calls.embed {D : Type y} {S : D → Type v} {P : D → Prop} {f : C → D}
    {p : Prog C (fun c => S (f c)) α} (hp : Calls (fun c => P (f c)) p) :
    Calls P (p.embed f) := by
  induction p with
  | ret a => trivial
  | call c k ih =>
      rw [calls_call] at hp
      exact calls_call.mpr ⟨hp.1, fun r => ih r (hp.2 r)⟩

theorem Along.map {P : List (Event C R) → C → Prop} {h : List (Event C R)}
    {p : Prog C R α} {f : α → β} (hp : Along P h p) : Along P h (p.map f) :=
  hp.bind fun _ _ _ => trivial

theorem Calls.mono {P Q : C → Prop} (hPQ : ∀ c, P c → Q c) {p : Prog C R α}
    (hp : Calls P p) : Calls Q p := Along.mono (fun _ => hPQ) hp

/-! ## What a program can return -/

/-- Every value `p` can return satisfies `P`, whatever the replies. -/
def Returns (P : α → Prop) : Prog C R α → Prop
  | .ret a => P a
  | .call _ k => ∀ r, Returns P (k r)

@[simp] theorem returns_ret {P : α → Prop} {a : α} :
    Returns P (.ret a : Prog C R α) ↔ P a := Iff.rfl

@[simp] theorem returns_call {P : α → Prop} {c : C} {k : R c → Prog C R α} :
    Returns P (.call c k) ↔ ∀ r, Returns P (k r) := Iff.rfl

theorem Returns.of_forall {P : α → Prop} {p : Prog C R α} (h : ∀ a, P a) :
    Returns P p := by
  induction p with
  | ret a => exact h a
  | call c k ih => exact fun r => ih r

theorem Path.returns {P : α → Prop} {p : Prog C R α} {tr : List (Event C R)}
    {a : α} (hpath : Path p tr (.ret a)) (hp : Returns P p) : P a := by
  generalize hq : (.ret a : Prog C R α) = q at hpath
  induction hpath with
  | nil =>
      subst hq
      exact hp
  | cons _ ih => exact ih (hp _) hq

theorem Returns.bind {P : β → Prop} {p : Prog C R α} {f : α → Prog C R β}
    (hf : ∀ a, Returns P (f a)) : Returns P (p.bind f) := by
  induction p with
  | ret a => exact hf a
  | call c k ih => exact fun r => ih r

theorem Returns.map {P : β → Prop} {p : Prog C R α} {f : α → β}
    (hf : ∀ a, P (f a)) : Returns P (p.map f) := Returns.bind hf

theorem Returns.embed {D : Type y} {S : D → Type v} {P : α → Prop} {f : C → D}
    {p : Prog C (fun c => S (f c)) α} (hp : Returns P p) :
    Returns P (p.embed f) := by
  induction p with
  | ret a => exact hp
  | call c k ih => exact fun r => ih r (hp r)

/-! ## Running a program against a state -/

/-- Run to completion against a state, one call after another: the events, the
value returned and the state left behind. -/
def exec {σ : Type y} (serve : (c : C) → σ → R c × σ) :
    Prog C R α → σ → List (Event C R) × α × σ
  | .ret a, s => ([], a, s)
  | .call c k, s =>
      let r := serve c s
      let rest := exec serve (k r.1) r.2
      (⟨c, r.1⟩ :: rest.1, rest.2)

theorem exec_path {σ : Type y} (serve : (c : C) → σ → R c × σ)
    (p : Prog C R α) (s : σ) :
    Path p (exec serve p s).1 (.ret (exec serve p s).2.1) := by
  induction p generalizing s with
  | ret a => exact .nil
  | call c k ih => exact .cons (ih _ _)

/-- First `p` is run, then what it selected, from the state `p` left behind. -/
theorem exec_bind {σ : Type y} (serve : (c : C) → σ → R c × σ)
    (p : Prog C R α) (f : α → Prog C R β) (s : σ) :
    (exec serve (p.bind f) s).2 =
      (exec serve (f (exec serve p s).2.1) (exec serve p s).2.2).2 := by
  induction p generalizing s with
  | ret a => rfl
  | call c k ih => exact ih _ _

theorem exec_map {σ : Type y} (serve : (c : C) → σ → R c × σ)
    (p : Prog C R α) (f : α → β) (s : σ) :
    (exec serve (p.map f) s).2 =
      (f (exec serve p s).2.1, (exec serve p s).2.2) := exec_bind serve p _ s

end Prog

end Vexil.Lib
