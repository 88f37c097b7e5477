import Mathlib.Data.List.Pairwise
import Vexil.Lib.Table

/-!
# Statements of SQL on one table

The fragment that a store with prepared statements uses. A query has conditions
joined by `AND`, each of which compares a column to a parameter, it orders by a
column and may have a limit that is a parameter. Parameters are numbered from
one and bound to the arguments in their order; a statement is refused when the
numbers it uses are not those of its arguments.

A table has no order, so the answer of a query is a relation: any arrangement
of the rows that pass, as long as it is ordered. Where the order is strict on
these rows it is a function (`Select.answers_iff`).

The statements that change a table keep its unique column unique: `Table` says
so in its type. What a program sees of them is the number of rows.
-/

namespace Vexil.Lib.Sql

/-! ## Queries -/

inductive Value where
  | text (s : String)
  | time (t : Nat)
  | int (n : Int)
  deriving DecidableEq

/-- Values are compared with their own type. -/
def Value.lt : Value → Value → Bool
  | .text a, .text b => a < b
  | .time a, .time b => a < b
  | .int a, .int b => a < b
  | _, _ => false

inductive Comparison where
  | eq | ge
  deriving DecidableEq

def Comparison.test : Comparison → Value → Value → Bool
  | .eq, v, arg => v = arg
  | .ge, v, arg => v = arg ∨ arg.lt v

/-- `column op $param`. -/
structure Cond (κ : Type) where
  column : κ
  op : Comparison
  param : Nat

/-- `SELECT … WHERE … ORDER BY … DESC`, with `LIMIT $k` if there is one. -/
structure Select (κ : Type) where
  conds : List (Cond κ)
  orderDesc : κ
  limit : Option Nat := none

section
variable {ρ κ : Type} (read : ρ → κ → Option Value)

/-- The value bound to a parameter. -/
def argument (args : List Value) (param : Nat) : Option Value :=
  args[param - 1]?

/-- A condition on `NULL` does not hold. -/
def Cond.holds (args : List Value) (row : ρ) (c : Cond κ) : Bool :=
  match read row c.column, argument args c.param with
  | some v, some arg => c.op.test v arg
  | _, _ => false

def Select.params (q : Select κ) : List Nat :=
  q.conds.map Cond.param ++ q.limit.toList

/-- Every parameter has an argument and every argument is used. -/
def Select.Bound (q : Select κ) (args : List Value) : Prop :=
  ∀ k, k ∈ q.params ↔ 1 ≤ k ∧ k ≤ args.length

/-- The rows that pass. -/
def Select.passing (q : Select κ) (args : List Value) (rows : List ρ) :
    List ρ :=
  rows.filter fun row => q.conds.all (Cond.holds read args row)

/-- `a` need not stand behind `b`. -/
def Select.InOrder (q : Select κ) (a b : ρ) : Prop :=
  ∀ u ∈ read a q.orderDesc, ∀ v ∈ read b q.orderDesc, u.lt v = false

/-- What a limit leaves of the ordered rows. -/
def Select.cut (q : Select κ) (args : List Value) (rows : List ρ) : List ρ :=
  match q.limit.bind (argument args) with
  | some (.int n) => rows.take n.toNat
  | _ => rows

/-- The server may answer the query with `result`. -/
def Select.Answers (q : Select κ) (args : List Value)
    (rows result : List ρ) : Prop :=
  q.Bound args ∧ ∃ sorted, sorted.Perm (q.passing read args rows) ∧
    sorted.Pairwise (q.InOrder read) ∧ result = q.cut args sorted

variable {read}

/-- With one order that the rows can have there is one answer. -/
theorem Select.answers_iff {q : Select κ} {args : List Value}
    {rows sorted result : List ρ} (hbound : q.Bound args)
    (hperm : sorted.Perm (q.passing read args rows))
    (hstrict : sorted.Pairwise fun a b =>
      q.InOrder read a b ∧ ¬q.InOrder read b a) :
    q.Answers read args rows result ↔ result = q.cut args sorted := by
  have horder : sorted.Pairwise (q.InOrder read) :=
    hstrict.imp fun hab => hab.1
  have hnotboth : sorted.Pairwise fun a b =>
      ¬(q.InOrder read a b ∧ q.InOrder read b a) :=
    hstrict.imp fun hab hboth => hab.2 hboth.2
  have : Std.Symm fun a b => ¬(q.InOrder read a b ∧ q.InOrder read b a) :=
    ⟨fun a b hab hba => hab hba.symm⟩
  constructor
  · rintro ⟨_, other, hother, hpair, rfl⟩
    have hsame : other.Perm sorted := hother.trans hperm.symm
    have heq : other = sorted := by
      refine hsame.eq_of_pairwise ?_ hpair horder
      intro a b ha hb hab hba
      by_contra hne
      exact hnotboth.forall (hsame.mem_iff.mp ha) hb hne ⟨hab, hba⟩
    rw [heq]
  · rintro rfl
    exact ⟨hbound, sorted, hperm, horder, rfl⟩

end

/-! ## Statements on a table with a unique column -/

section
variable {ρ κ : Type} {key : ρ → κ} [DecidableEq κ]

/-- `INSERT`; `none` is the error that the key is there already. -/
def insert (t : Table key) (row : ρ) : Option (Table key) :=
  if h : t.get? (key row) = none then some (t.add row h) else none

/-- `INSERT … ON CONFLICT (key) DO UPDATE SET`. -/
def upsert (t : Table key) (row : ρ) (set : ρ → ρ)
    (hset : ∀ r, key (set r) = key r) : Table key :=
  if h : t.get? (key row) = none then t.add row h
  else t.mapItems (fun r => if key r = key row then set r else r) fun r => by
    split
    · exact hset r
    · rfl

/-- `UPDATE … SET … WHERE key = k`, and how many rows that were. -/
def update (t : Table key) (k : κ) (set : ρ → ρ)
    (hset : ∀ r, key (set r) = key r) : Nat × Table key :=
  ((t.items.filter fun r => key r = k).length,
    t.mapItems (fun r => if key r = k then set r else r) fun r => by
      split
      · exact hset r
      · rfl)

/-- `DELETE … WHERE key = k`, and how many rows that were. -/
def delete (t : Table key) (k : κ) : Nat × Table key :=
  ((t.items.filter fun r => key r = k).length, t.erase k)

/-- The first row of `SELECT … WHERE` with the conditions `p`. -/
def queryRow (t : Table key) (p : ρ → Bool) : Option ρ :=
  (t.items.filter p).head?

theorem queryRow_key (t : Table key) (k : κ) :
    queryRow t (fun r => key r = k) = t.get? k := by
  rw [queryRow, List.head?_filter, Table.get?]

/-- A unique key has at most one row. -/
theorem filter_key (t : Table key) (k : κ) :
    (t.items.filter fun r => key r = k) = (t.get? k).toList := by
  have hkeys : ∀ c ∈ (t.items.filter fun r => key r = k).map key, c = k := by
    intro c hc
    obtain ⟨r, hr, rfl⟩ := List.mem_map.mp hc
    simpa using (List.mem_filter.mp hr).2
  have hnodup : ((t.items.filter fun r => key r = k).map key).Nodup :=
    t.nodup.sublist (List.filter_sublist.map key)
  rw [List.eq_replicate_of_mem hkeys, List.length_map,
    List.nodup_replicate] at hnodup
  rw [← queryRow_key, queryRow]
  generalize (t.items.filter fun r => key r = k) = rows at hnodup
  match rows with
  | [] => rfl
  | [r] => rfl
  | _ :: _ :: _ => simp at hnodup

/-- A unique key and another condition. -/
theorem queryRow_key_and (t : Table key) (k : κ) (p : ρ → Bool) :
    queryRow t (fun r => key r = k ∧ p r) = (t.get? k).filter p := by
  have hboth : (t.items.filter fun r => key r = k ∧ p r) =
      (t.items.filter fun r => key r = k).filter p := by
    rw [List.filter_filter]
    refine List.filter_congr fun r _ => ?_
    rw [Bool.decide_and, Bool.and_comm, Bool.decide_coe]
  rw [queryRow, hboth, filter_key]
  cases t.get? k with
  | none => rfl
  | some r =>
      cases hp : p r with
      | true => simp [Option.filter, hp]
      | false => simp [Option.filter, hp]

theorem get?_mapKey (t : Table key) (k k' : κ) (set : ρ → ρ)
    (hset : ∀ r, key (if key r = k then set r else r) = key r) :
    (t.mapItems (fun r => if key r = k then set r else r) hset).get? k' =
      if k' = k then (t.get? k').map set else t.get? k' := by
  rw [Table.get?_mapItems]
  cases hr : t.get? k' with
  | none => split <;> rfl
  | some r =>
      obtain rfl := Table.key_of_get? hr
      split
      · next h => simp [h]
      · next h => simp [h]

theorem get?_update (t : Table key) (k k' : κ) (set : ρ → ρ)
    (hset : ∀ r, key (set r) = key r) : (update t k set hset).2.get? k' =
      if k' = k then (t.get? k').map set else t.get? k' := by
  unfold update
  rw [get?_mapKey]

theorem get?_upsert (t : Table key) (row : ρ) (set : ρ → ρ)
    (hset : ∀ r, key (set r) = key r) (k : κ) :
    (upsert t row set hset).get? k =
      if k = key row then some (((t.get? k).map set).getD row)
      else t.get? k := by
  unfold upsert
  split
  · next h =>
      rw [Table.get?_add]
      split
      · next hk =>
          subst hk
          rw [h]
          rfl
      · rfl
  · next h =>
      rw [get?_mapKey]
      split
      · next hk =>
          subst hk
          obtain ⟨r, hr⟩ := Option.ne_none_iff_exists'.mp h
          rw [hr]
          rfl
      · rfl

end

end Vexil.Lib.Sql
