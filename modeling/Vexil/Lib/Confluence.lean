import Mathlib.Data.List.Dedup

/-!
# Repeated work in any order

A family of operations on one value. If each of them is idempotent and any two
commute, a sequence of them is no more than the set of those that occur in it:
`foldl_congr_mem`. This is what an observer of a large state wants to know about
every single thing it can look at, when several parties keep repairing their
own parts of the state.

The proof drops every occurrence but the last of each operation, which is where
idempotence and commutation meet (`foldl_absorb`), and what is left of two
sequences is a permutation.
-/

namespace Vexil.Lib

universe u v

variable {ι : Type u} {α : Type v} {op : ι → α → α}

/-- Work that is done again later need not be done now. -/
theorem foldl_absorb {i : ι} {l : List ι} (hi : i ∈ l)
    (hidem : ∀ a, op i (op i a) = op i a)
    (hcomm : ∀ j ∈ l, ∀ a, op i (op j a) = op j (op i a)) (a : α) :
    l.foldl (fun a j => op j a) (op i a) = l.foldl (fun a j => op j a) a := by
  induction l generalizing a with
  | nil => cases hi
  | cons j l ih =>
      rw [List.foldl_cons, List.foldl_cons]
      obtain ⟨hj, hcomm⟩ := List.forall_mem_cons.mp hcomm
      rcases List.mem_cons.mp hi with rfl | hi
      · rw [hidem]
      · rw [← hj, ih hi hcomm]

theorem foldl_dedup [DecidableEq ι] {l : List ι}
    (hidem : ∀ i ∈ l, ∀ a, op i (op i a) = op i a)
    (hcomm : ∀ i ∈ l, ∀ j ∈ l, ∀ a, op i (op j a) = op j (op i a)) (a : α) :
    l.dedup.foldl (fun a j => op j a) a = l.foldl (fun a j => op j a) a := by
  induction l generalizing a with
  | nil => rfl
  | cons i l ih =>
      have htail := ih (fun j hj => hidem j (.tail _ hj))
        fun j hj k hk => hcomm j (.tail _ hj) k (.tail _ hk)
      by_cases hi : i ∈ l
      · have habsorb := foldl_absorb hi (hidem i List.mem_cons_self)
          (fun j hj => hcomm i List.mem_cons_self j (.tail _ hj)) a
        rw [List.dedup_cons_of_mem hi, htail, List.foldl_cons, habsorb]
      · rw [List.dedup_cons_of_notMem hi, List.foldl_cons, List.foldl_cons,
          htail]

/-- Only the set of operations matters. -/
theorem foldl_congr_mem {l l' : List ι} (hl : ∀ i, i ∈ l ↔ i ∈ l')
    (hidem : ∀ i ∈ l, ∀ a, op i (op i a) = op i a)
    (hcomm : ∀ i ∈ l, ∀ j ∈ l, ∀ a, op i (op j a) = op j (op i a)) (a : α) :
    l.foldl (fun a j => op j a) a = l'.foldl (fun a j => op j a) a := by
  classical
  have hidem' : ∀ i ∈ l', ∀ a, op i (op i a) = op i a :=
    fun i hi => hidem i ((hl i).mpr hi)
  have hcomm' : ∀ i ∈ l', ∀ j ∈ l', ∀ a, op i (op j a) = op j (op i a) :=
    fun i hi j hj => hcomm i ((hl i).mpr hi) j ((hl j).mpr hj)
  have hperm : l.dedup.Perm l'.dedup := by
    rw [List.perm_ext_iff_of_nodup l.nodup_dedup l'.nodup_dedup]
    intro i
    rw [List.mem_dedup, List.mem_dedup, hl]
  have hswap : ∀ i ∈ l.dedup, ∀ j ∈ l.dedup, ∀ a,
      op j (op i a) = op i (op j a) := by
    intro i hi j hj a
    exact (hcomm i (List.mem_dedup.mp hi) j (List.mem_dedup.mp hj) a).symm
  rw [← foldl_dedup hidem hcomm, ← foldl_dedup hidem' hcomm',
    hperm.foldl_eq' hswap]

end Vexil.Lib
