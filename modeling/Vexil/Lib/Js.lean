import Mathlib.Data.List.DropRight
import Vexil.Lib.Go

/-!
# The parts of JavaScript the console leans on

`s.split(',')` on a one-character separator is `split`. An object is a map, and
the order in which its entries are enumerated is left open (`GoMap.Ranges`). A
property can be there and be undefined, and then `JSON.stringify` leaves it out.
-/

namespace Vexil.Lib.Js

/-- White space and line terminators. -/
def isSpace (c : Char) : Bool :=
  (9 ≤ c.toNat ∧ c.toNat ≤ 13) ∨ c.toNat = 0x20 ∨ c.toNat = 0xA0 ∨
    c.toNat = 0x1680 ∨ (0x2000 ≤ c.toNat ∧ c.toNat ≤ 0x200A) ∨
    c.toNat = 0x2028 ∨ c.toNat = 0x2029 ∨ c.toNat = 0x202F ∨
    c.toNat = 0x205F ∨ c.toNat = 0x3000 ∨ c.toNat = 0xFEFF

/-- `s.trimEnd()`. -/
def trimEnd (s : String) : String := String.ofList (s.toList.rdropWhile isSpace)

/-- `s.trim()`. -/
def trim (s : String) : String :=
  trimEnd (String.ofList (s.toList.dropWhile isSpace))

/-- `a || b` on strings. -/
def orElse (a b : String) : String := if a = "" then b else a

/-- `s || undefined`. -/
def orUndefined (s : String) : Option String := if s = "" then none else some s

/-! ## Trimming -/

/-- The text does not begin with white space. -/
def FlushLeft (s : String) : Prop := ∀ c ∈ s.toList.head?, isSpace c = false

/-- The text does not end with white space. -/
def FlushRight (s : String) : Prop := ∀ c ∈ s.toList.getLast?, isSpace c = false

instance (s : String) : Decidable (FlushLeft s) := Option.decidableForallMem _

instance (s : String) : Decidable (FlushRight s) := Option.decidableForallMem _

theorem trimEnd_eq_self_iff {s : String} : trimEnd s = s ↔ FlushRight s := by
  rw [trimEnd, ← String.toList_inj, String.toList_ofList,
    List.rdropWhile_eq_self_iff, FlushRight]
  constructor
  · intro h c hc
    obtain ⟨hne, rfl⟩ := List.mem_getLast?_eq_getLast hc
    exact Bool.eq_false_iff.mpr (h hne)
  · intro h hne
    exact Bool.eq_false_iff.mp (h _ (List.getLast?_eq_some_getLast hne))

theorem toList_trim (s : String) :
    (trim s).toList = (s.toList.dropWhile isSpace).rdropWhile isSpace := by
  rw [trim, trimEnd, String.toList_ofList, String.toList_ofList]

theorem flushLeft_trim (s : String) : FlushLeft (trim s) := by
  intro c hc
  rw [toList_trim] at hc
  obtain ⟨rest, hrest⟩ :=
    List.rdropWhile_prefix isSpace (s.toList.dropWhile isSpace)
  have hhead : (s.toList.dropWhile isSpace).head? = some c := by
    rw [← hrest, List.head?_append, hc]
    rfl
  have hnot := List.head?_dropWhile_not isSpace s.toList
  rwa [hhead] at hnot

theorem trim_subset (s : String) : (trim s).toList ⊆ s.toList := by
  rw [toList_trim]
  exact fun c hc => (List.dropWhile_sublist isSpace).mem
    ((List.rdropWhile_prefix isSpace _).subset hc)

theorem dropWhile_of_flushLeft {s : String} (h : FlushLeft s) :
    s.toList.dropWhile isSpace = s.toList := by
  unfold FlushLeft at h
  cases hs : s.toList with
  | nil => rfl
  | cons c cs =>
      rw [hs] at h
      exact List.dropWhile_cons_of_neg (by simp [h c rfl])

/-- Only the outer ends of an assignment are trimmed. -/
theorem trim_append {a b : String} {c : Char} (ha : FlushLeft a)
    (hc : isSpace c = false) :
    trim (a ++ String.singleton c ++ b) =
      a ++ String.singleton c ++ trimEnd b := by
  rw [← String.toList_inj, toList_trim]
  have hleft : FlushLeft (a ++ String.singleton c ++ b) := by
    intro x hx
    rw [String.toList_append, String.toList_append, String.toList_singleton,
      List.append_assoc, List.head?_append] at hx
    cases hhead : a.toList.head? with
    | none =>
        rw [hhead] at hx
        cases hx
        exact hc
    | some y =>
        rw [hhead] at hx
        cases hx
        exact ha _ hhead
  have hright : ∀ l : List Char, (l ++ [c]).reverse.dropWhile isSpace =
      (l ++ [c]).reverse := by
    intro l
    rw [List.reverse_append]
    exact List.dropWhile_cons_of_neg (by simp [hc])
  rw [dropWhile_of_flushLeft hleft]
  simp only [String.toList_append, String.toList_singleton, trimEnd,
    String.toList_ofList]
  rw [List.rdropWhile, List.reverse_append, List.dropWhile_append, hright,
    List.rdropWhile]
  split
  · next hempty =>
      rw [List.isEmpty_iff.mp hempty, List.reverse_reverse, List.reverse_nil,
        List.append_nil]
  · rw [List.reverse_append, List.reverse_reverse]

section
variable {V : Type}

/-- `Object.fromEntries`: a later entry replaces an earlier one. -/
def fromEntries (entries : List (String × Option V)) : GoMap (Option V) :=
  entries.foldl (fun o e => o.insert e.1 e.2) ∅

/-- One property of an object, if it is not undefined. -/
def addProperty (o : GoMap (Option V)) (m : GoMap V) (k : String) : GoMap V :=
  match (o.lookup k).join with
  | some v => m.insert k v
  | none => m

/-- The object as `JSON.stringify` has it. -/
def stringified (o : GoMap (Option V)) : GoMap V :=
  o.sortedKeys.foldl (addProperty o) ∅

theorem lookup_fromEntries (entries : List (String × Option V)) (k : String) :
    (fromEntries entries).lookup k =
      ((entries.filter fun e => e.1 = k).getLast?).map Prod.snd := by
  rw [fromEntries, GoMap.lookup_foldl_insert, Finmap.lookup_empty,
    Option.or_none]

theorem lookup_addProperty (o : GoMap (Option V)) (m : GoMap V)
    (k k' : String) :
    (addProperty o m k').lookup k =
      if k = k' then (o.lookup k).join.or (m.lookup k) else m.lookup k := by
  unfold addProperty
  by_cases hk : k = k'
  · subst hk
    rw [if_pos rfl]
    cases (o.lookup k).join with
    | none => rfl
    | some v => exact Finmap.lookup_insert m
  · rw [if_neg hk]
    cases (o.lookup k').join with
    | none => rfl
    | some v => exact Finmap.lookup_insert_of_ne m hk

theorem lookup_stringified (o : GoMap (Option V)) (k : String) :
    (stringified o).lookup k = (o.lookup k).join := by
  have hfold : ∀ (ks : List String) (m : GoMap V),
      (ks.foldl (addProperty o) m).lookup k =
        if k ∈ ks then (o.lookup k).join.or (m.lookup k) else m.lookup k := by
    intro ks
    induction ks with
    | nil => exact fun m => (if_neg List.not_mem_nil).symm
    | cons k' ks ih =>
        intro m
        rw [List.foldl_cons, ih, lookup_addProperty]
        by_cases hk : k = k'
        · subst hk
          rw [if_pos rfl, if_pos List.mem_cons_self, ← Option.or_assoc,
            Option.or_self, ite_self]
        · simp only [List.mem_cons, hk, false_or, if_false]
  rw [stringified, hfold, Finmap.lookup_empty]
  split
  · exact Option.or_none
  · next hk =>
      have hnot : k ∉ o := fun h => hk ((o.ranges_sortedKeys.2 k).mpr h)
      rw [Finmap.lookup_eq_none.mpr hnot]
      rfl

end

end Vexil.Lib.Js
