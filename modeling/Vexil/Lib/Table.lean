import Mathlib.Data.List.Nodup

/-!
# Tables: lists of records with distinct keys

A store that keeps whole records and finds them by a key the record carries.
The table is a list, so it can be listed in a fixed order, and the distinctness
of the keys is part of the type: `put` replaces a record in place, `add`
appends one that was not there, `erase` drops one, and none of them can produce
a table that holds two records under one key.

Everything a client needs is `get?`. The lemmas below say what it answers after
each operation, so that nothing later looks at the list.
-/

namespace Vexil.Lib

universe u v

/-- Records with pairwise distinct keys. -/
structure Table {α : Type u} {κ : Type v} (key : α → κ) where
  items : List α
  nodup : (items.map key).Nodup

namespace Table

variable {α : Type u} {κ : Type v} {key : α → κ}

instance [DecidableEq α] : DecidableEq (Table key) := fun t t' =>
  decidable_of_iff (t.items = t'.items)
    ⟨fun h => by cases t; cases t'; congr, fun h => h ▸ rfl⟩

def empty : Table key := ⟨[], List.nodup_nil⟩

/-- Two records of a table under one key are the same record. -/
theorem eq_of_key {t : Table key} {a b : α} (ha : a ∈ t.items)
    (hb : b ∈ t.items) (h : key a = key b) : a = b :=
  List.inj_on_of_nodup_map t.nodup ha hb h

variable [DecidableEq κ]

/-- The record stored under a key. -/
def get? (t : Table key) (k : κ) : Option α := t.items.find? fun a => key a = k

theorem mem_of_get? {t : Table key} {k : κ} {a : α} (h : t.get? k = some a) :
    a ∈ t.items := List.mem_of_find?_eq_some h

theorem key_of_get? {t : Table key} {k : κ} {a : α} (h : t.get? k = some a) :
    key a = k := by
  simpa using List.find?_some h

theorem get?_of_mem {t : Table key} {a : α} (ha : a ∈ t.items) :
    t.get? (key a) = some a := by
  cases h : t.get? (key a) with
  | none =>
      rw [get?, List.find?_eq_none] at h
      exact absurd (h a ha) (by simp)
  | some b => rw [eq_of_key (mem_of_get? h) ha (key_of_get? h)]

theorem get?_eq_some {t : Table key} {k : κ} {a : α} :
    t.get? k = some a ↔ a ∈ t.items ∧ key a = k := by
  constructor
  · intro h
    exact ⟨mem_of_get? h, key_of_get? h⟩
  · rintro ⟨ha, rfl⟩
    exact get?_of_mem ha

theorem get?_eq_none {t : Table key} {k : κ} :
    t.get? k = none ↔ ∀ a ∈ t.items, key a ≠ k := by
  simp [get?, List.find?_eq_none]

@[simp] theorem get?_empty (k : κ) : (empty : Table key).get? k = none := rfl

/-! ## The four operations -/

/-- Change every record, keeping its key. -/
def mapItems (t : Table key) (f : α → α) (hf : ∀ a, key (f a) = key a) :
    Table key where
  items := t.items.map f
  nodup := by
    rw [List.map_map, show key ∘ f = key from funext hf]
    exact t.nodup

theorem get?_mapItems (t : Table key) (f : α → α) (hf : ∀ a, key (f a) = key a)
    (k : κ) : (t.mapItems f hf).get? k = (t.get? k).map f := by
  simp only [get?, mapItems, List.find?_map]
  congr 2
  funext a
  simp [hf]

/-- Replace the record that has the key of `a`; a table without one is left
alone. -/
def put (t : Table key) (a : α) : Table key :=
  t.mapItems (fun b => if key b = key a then a else b) fun b => by
    split <;> simp_all

theorem get?_put (t : Table key) (a : α) (k : κ) :
    (t.put a).get? k =
      if k = key a then (t.get? k).map fun _ => a else t.get? k := by
  rw [put, get?_mapItems]
  cases h : t.get? k with
  | none => simp
  | some b =>
      have hb := key_of_get? h
      subst hb
      simp only [Option.map_some]
      split <;> rfl

/-- Append a record whose key is not there yet. -/
def add (t : Table key) (a : α) (h : t.get? (key a) = none) : Table key where
  items := t.items ++ [a]
  nodup := by
    rw [List.map_append, List.map_singleton]
    refine t.nodup.append (List.nodup_singleton _) ?_
    rw [List.disjoint_singleton, List.mem_map]
    rintro ⟨b, hb, hk⟩
    exact get?_eq_none.mp h b hb hk

theorem get?_add (t : Table key) (a : α) (h : t.get? (key a) = none) (k : κ) :
    (t.add a h).get? k = if k = key a then some a else t.get? k := by
  simp only [get?, add, List.find?_append]
  by_cases hk : k = key a
  · subst hk
    rw [get?] at h
    simp [h]
  · simp [hk, Ne.symm hk]

/-- Drop the record under a key. -/
def erase (t : Table key) (k : κ) : Table key where
  items := t.items.filter fun a => key a ≠ k
  nodup := t.nodup.sublist (List.filter_sublist.map key)

theorem get?_erase (t : Table key) (k k' : κ) :
    (t.erase k).get? k' = if k' = k then none else t.get? k' := by
  split
  · next h =>
      subst h
      rw [get?_eq_none]
      intro a ha
      simpa using (List.mem_filter.mp ha).2
  · next h =>
      cases hg : t.get? k' with
      | none =>
          rw [get?_eq_none] at hg ⊢
          exact fun a ha => hg a (List.mem_filter.mp ha).1
      | some a =>
          rw [get?_eq_some] at hg ⊢
          obtain ⟨ha, rfl⟩ := hg
          exact ⟨List.mem_filter.mpr ⟨ha, by simpa using h⟩, rfl⟩

/-- Replace or append, as the key asks for. -/
def set (t : Table key) (a : α) : Table key :=
  if h : t.get? (key a) = none then t.add a h else t.put a

theorem get?_set (t : Table key) (a : α) (k : κ) :
    (t.set a).get? k = if k = key a then some a else t.get? k := by
  unfold set
  split
  · next h => exact get?_add t a h k
  · next h =>
      rw [get?_put]
      by_cases hk : k = key a
      · subst hk
        obtain ⟨b, hb⟩ := Option.ne_none_iff_exists'.mp h
        simp [hb]
      · simp [hk]

theorem mem_set {t : Table key} {a b : α} (h : b ∈ (t.set a).items) :
    b = a ∨ b ∈ t.items := by
  have hb := get?_of_mem h
  rw [get?_set] at hb
  split at hb
  · exact .inl (Option.some.inj hb).symm
  · exact .inr (mem_of_get? hb)

theorem mem_erase {t : Table key} {k : κ} {b : α}
    (h : b ∈ (t.erase k).items) : b ∈ t.items := (List.mem_filter.mp h).1

/-- Two tables with the same kind of record under each key hold as many of
them. -/
theorem length_filter_congr {t t' : Table key} {p : α → Bool}
    (h : ∀ k, (t.get? k).any p = (t'.get? k).any p) :
    (t.items.filter p).length = (t'.items.filter p).length := by
  have hmem : ∀ (u : Table key) k,
      k ∈ (u.items.filter p).map key ↔ (u.get? k).any p = true := by
    intro u k
    rw [List.mem_map, Option.any_eq_true]
    constructor
    · rintro ⟨a, ha, rfl⟩
      obtain ⟨ha, hp⟩ := List.mem_filter.mp ha
      exact ⟨a, get?_of_mem ha, hp⟩
    · rintro ⟨a, ha, hp⟩
      obtain ⟨ha, hk⟩ := get?_eq_some.mp ha
      exact ⟨a, List.mem_filter.mpr ⟨ha, hp⟩, hk⟩
  have hnodup : ∀ u : Table key, ((u.items.filter p).map key).Nodup :=
    fun u => u.nodup.sublist (List.filter_sublist.map key)
  have hperm : ((t.items.filter p).map key).Perm
      ((t'.items.filter p).map key) := by
    rw [List.perm_ext_iff_of_nodup (hnodup t) (hnodup t')]
    intro k
    rw [hmem, hmem, h]
  simpa using hperm.length_eq

end Table

end Vexil.Lib
