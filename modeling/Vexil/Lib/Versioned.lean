import Vexil.Lib.Table

/-!
# Optimistic concurrency

A store in the style of an API server. Every record carries a version, every
accepted write stamps the record with a version that was never used before, and
a write that was prepared from an older version is refused. Nothing else
protects a client that reads, computes and writes back later.

A `VTable` is such a store together with every version it ever held. The three
facts that make the discipline work are fields of the type, so each operation
proves them once: what is stored is part of the past, versions of the past are
at most the clock, and a key and a version name one record of the past.
`eq_of_version` is the consequence a client lives on. If a record that was read
at any earlier time still has the version of the stored one, it is the stored
one, and so the write that follows replaces exactly what was read.
-/

namespace Vexil.Lib

universe u v

/-- Records with a key and a version that the store assigns. -/
class Versioned (α : Type u) (κ : outParam (Type v)) where
  key : α → κ
  version : α → Nat
  withVersion : α → Nat → α
  key_withVersion : ∀ a n, key (withVersion a n) = key a
  version_withVersion : ∀ a n, version (withVersion a n) = n

attribute [simp] Versioned.key_withVersion Versioned.version_withVersion

/-- Why a write was refused. -/
inductive Reject where
  | notFound
  | alreadyExists
  | conflict
  deriving DecidableEq, Repr

open Versioned

/-- A store of versioned records, with all versions it ever held. -/
structure VTable (α : Type u) {κ : Type v} [Versioned α κ] where
  rows : Table (key (α := α))
  clock : Nat
  past : List α
  rows_past : ∀ a ∈ rows.items, a ∈ past
  past_le : ∀ a ∈ past, version a ≤ clock
  past_unique : ∀ a ∈ past, ∀ b ∈ past,
    key a = key b → version a = version b → a = b

namespace VTable

variable {α : Type u} {κ : Type v} [Versioned α κ]

def empty : VTable α where
  rows := .empty
  clock := 0
  past := []
  rows_past := by simp [Table.empty]
  past_le := by simp
  past_unique := by simp

/-- The record as the store would stamp it now. -/
def stamp (t : VTable α) (a : α) : α := withVersion a (t.clock + 1)

theorem key_stamp (t : VTable α) (a : α) : key (t.stamp a) = key a :=
  key_withVersion a _

variable [DecidableEq κ]

def get? (t : VTable α) (k : κ) : Option α := t.rows.get? k

theorem key_of_get? {t : VTable α} {k : κ} {a : α} (h : t.get? k = some a) :
    key a = k := Table.key_of_get? h

theorem past_of_get? {t : VTable α} {k : κ} {a : α} (h : t.get? k = some a) :
    a ∈ t.past := t.rows_past a (Table.mem_of_get? h)

/-- A record read at any time whose version is the stored one's is the stored
record. -/
theorem eq_of_version {t : VTable α} {a b : α} (ha : a ∈ t.past)
    (hb : t.get? (key a) = some b) (h : version a = version b) : b = a :=
  t.past_unique b (past_of_get? hb) a ha (key_of_get? hb) h.symm

/-! ## Writes -/

/-- Store a record under a fresh version, whatever was there. -/
def write (t : VTable α) (a : α) : VTable α where
  rows := t.rows.set (t.stamp a)
  clock := t.clock + 1
  past := t.stamp a :: t.past
  rows_past := by
    intro b hb
    rcases Table.mem_set hb with rfl | hb
    · exact List.mem_cons_self
    · exact List.mem_cons_of_mem _ (t.rows_past b hb)
  past_le := by
    intro b hb
    rcases List.mem_cons.mp hb with rfl | hb
    · exact Nat.le_of_eq (version_withVersion a _)
    · exact Nat.le_succ_of_le (t.past_le b hb)
  past_unique := by
    have hnew : ∀ c ∈ t.past, version (t.stamp a) ≠ version c := by
      intro c hc hv
      have hle := t.past_le c hc
      rw [stamp, version_withVersion] at hv
      omega
    intro b hb c hc hk hv
    rcases List.mem_cons.mp hb with rfl | hb'
    · rcases List.mem_cons.mp hc with rfl | hc'
      · rfl
      · exact absurd hv (hnew c hc')
    · rcases List.mem_cons.mp hc with rfl | hc'
      · exact absurd hv.symm (hnew b hb')
      · exact t.past_unique b hb' c hc' hk hv

theorem get?_write (t : VTable α) (a : α) (k : κ) :
    (t.write a).get? k = if k = key a then some (t.stamp a) else t.get? k := by
  rw [get?, write, Table.get?_set, key_stamp]
  rfl

theorem get?_write_self (t : VTable α) (a : α) :
    (t.write a).get? (key a) = some (t.stamp a) := by
  rw [get?_write, if_pos rfl]

/-- Drop the record under a key; the versions it had stay in the past. -/
def remove (t : VTable α) (k : κ) : VTable α where
  rows := t.rows.erase k
  clock := t.clock
  past := t.past
  rows_past := fun a ha => t.rows_past a (Table.mem_erase ha)
  past_le := t.past_le
  past_unique := t.past_unique

theorem get?_remove (t : VTable α) (k k' : κ) :
    (t.remove k).get? k' = if k' = k then none else t.get? k' :=
  Table.get?_erase t.rows k k'

/-- Create: refused when the key is taken. -/
def create (t : VTable α) (a : α) : Except Reject α × VTable α :=
  match t.get? (key a) with
  | some _ => (.error .alreadyExists, t)
  | none => (.ok (t.stamp a), t.write a)

theorem create_ok {t t' : VTable α} {a b : α}
    (h : t.create a = (.ok b, t')) :
    t.get? (key a) = none ∧ b = t.stamp a ∧ t' = t.write a := by
  unfold create at h
  split at h
  · cases h
  · next hnone =>
      cases h
      exact ⟨hnone, rfl, rfl⟩

theorem create_error {t : VTable α} {a : α} {r : Reject}
    (h : (t.create a).1 = .error r) : (t.create a).2 = t := by
  unfold create at h ⊢
  split at h
  · rfl
  · cases h

variable [DecidableEq α]

/-- Update: refused when the record is gone or is not the version the client
prepared its write from. What is stored is `merge old new`, since a server may
keep parts of the old record, and a write that changes nothing keeps its
version too. -/
def update (merge : α → α → α) (t : VTable α) (a : α) :
    Except Reject α × VTable α :=
  match t.get? (key a) with
  | none => (.error .notFound, t)
  | some old =>
      if version a ≠ version old then (.error .conflict, t)
      else if merge old a = old then (.ok old, t)
      else (.ok (t.stamp (merge old a)), t.write (merge old a))

/-- What an accepted update did: it was prepared from the stored version, and
either it changed nothing or the merged record is stored under a new version. -/
theorem update_ok {merge : α → α → α} {t t' : VTable α} {a b : α}
    (h : t.update merge a = (.ok b, t')) :
    ∃ old, t.get? (key a) = some old ∧ version a = version old ∧
      (merge old a = old ∧ b = old ∧ t' = t ∨
        b = t.stamp (merge old a) ∧ t' = t.write (merge old a)) := by
  unfold update at h
  split at h
  · cases h
  · next old hold =>
      split at h
      · cases h
      · next hv =>
          split at h
          · next hsame =>
              simp only [Prod.mk.injEq, Except.ok.injEq] at h
              obtain ⟨rfl, rfl⟩ := h
              exact ⟨old, hold, not_not.mp hv, .inl ⟨hsame, rfl, rfl⟩⟩
          · cases h
            exact ⟨old, hold, not_not.mp hv, .inr ⟨rfl, rfl⟩⟩

theorem update_error {merge : α → α → α} {t : VTable α} {a : α}
    {r : Reject} (h : (t.update merge a).1 = .error r) :
    (t.update merge a).2 = t := by
  unfold update at h ⊢
  split at h
  · rfl
  · split at h
    · next hv => rw [if_pos hv]
    · split at h <;> cases h

/-- An update prepared from the stored record is accepted. -/
theorem update_of_current {merge : α → α → α} {t : VTable α} {a old : α}
    (hold : t.get? (key a) = some old) (hv : version a = version old) :
    ∃ b t', t.update merge a = (.ok b, t') := by
  unfold update
  rw [hold]
  simp only [hv, ne_eq, not_true_eq_false, if_false]
  split
  · exact ⟨_, _, rfl⟩
  · exact ⟨_, _, rfl⟩

/-- An update that changes nothing. -/
theorem update_same {merge : α → α → α} {t : VTable α} {a old : α}
    (hold : t.get? (key a) = some old) (hv : version a = version old)
    (hsame : merge old a = old) : t.update merge a = (.ok old, t) := by
  unfold update
  rw [hold]
  simp only [hv, ne_eq, not_true_eq_false, if_false]
  rw [if_pos hsame]

end VTable

end Vexil.Lib
