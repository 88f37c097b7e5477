import Mathlib.Data.List.DropRight

/-!
# Trimming with different ideas of white space

Languages do not agree on what white space is. `trimBy` takes the characters of
one idea from both ends of a text, and what is compared here are the results of
two ideas. All that matters is the outermost character, from either end, that
is not white space for both: one side stops there if it does not count it as
white space, and what the other side leaves never begins or ends with it.
-/

namespace Vexil.Lib

universe u

variable {α : Type u} {p q : α → Bool} {l : List α} {a : α}

/-- The list without what `p` holds of at its two ends. -/
def trimBy (p : α → Bool) (l : List α) : List α := (l.dropWhile p).rdropWhile p

theorem rdropWhile_cons (p : α → Bool) (a : α) (l : List α) :
    (a :: l).rdropWhile p =
      if l.rdropWhile p = [] then if p a then [] else [a]
      else a :: l.rdropWhile p := by
  unfold List.rdropWhile
  rw [List.reverse_cons, List.dropWhile_append]
  by_cases hl : l.reverse.dropWhile p = []
  · rw [if_pos (by simp [hl]), if_pos (by simp [hl]), List.dropWhile_cons]
    split
    · rfl
    · rfl
  · rw [if_neg (by simpa using hl), if_neg (by simpa using hl),
      List.reverse_append]
    rfl

/-- It does not matter which end is seen to first. -/
theorem rdropWhile_dropWhile (p q : α → Bool) (l : List α) :
    (l.dropWhile q).rdropWhile p = (l.rdropWhile p).dropWhile q := by
  induction l with
  | nil => rfl
  | cons a l ih =>
      by_cases hq : q a
      · rw [List.dropWhile_cons_of_pos hq, ih, rdropWhile_cons]
        split
        · next hnil =>
            rw [hnil]
            split
            · rfl
            · simp [hq]
        · rw [List.dropWhile_cons_of_pos hq]
      · rw [List.dropWhile_cons_of_neg hq, rdropWhile_cons]
        split
        · split
          · rfl
          · simp [hq]
        · rw [List.dropWhile_cons_of_neg hq]

theorem trimBy_eq (p : α → Bool) (l : List α) :
    trimBy p l = (l.rdropWhile p).dropWhile p := rdropWhile_dropWhile p p l

theorem of_head_dropWhile (h : (l.dropWhile p).head? = some a) :
    p a = false := by
  have hnot := List.head?_dropWhile_not p l
  rwa [h] at hnot

theorem of_getLast_rdropWhile (h : (l.rdropWhile p).getLast? = some a) :
    p a = false := by
  rw [List.rdropWhile, List.getLast?_reverse] at h
  exact of_head_dropWhile h

theorem of_head_trimBy (h : (trimBy p l).head? = some a) : p a = false := by
  rw [trimBy_eq] at h
  exact of_head_dropWhile h

theorem of_getLast_trimBy (h : (trimBy p l).getLast? = some a) :
    p a = false := of_getLast_rdropWhile h

/-! ## Two ideas of white space -/

/-- Everything that `q` takes is taken by `p`, which stops where `q` did if that
is no white space for it either. -/
theorem dropWhile_eq (hqp : ∀ a, q a = true → p a = true)
    (h : ∀ a, (l.dropWhile q).head? = some a → p a = false) :
    l.dropWhile p = l.dropWhile q := by
  induction l with
  | nil => rfl
  | cons a l ih =>
      by_cases hq : q a
      · rw [List.dropWhile_cons_of_pos hq] at h ⊢
        rw [List.dropWhile_cons_of_pos (hqp a hq)]
        exact ih h
      · rw [List.dropWhile_cons_of_neg hq] at h ⊢
        exact List.dropWhile_cons_of_neg (by simp [h a rfl])

theorem rdropWhile_eq (hqp : ∀ a, q a = true → p a = true)
    (h : ∀ a, (l.rdropWhile q).getLast? = some a → p a = false) :
    l.rdropWhile p = l.rdropWhile q := by
  refine congrArg List.reverse (dropWhile_eq hqp fun a ha => h a ?_)
  rw [List.rdropWhile, List.getLast?_reverse]
  exact ha

theorem trimBy_congr (hqp : ∀ a, q a = true → p a = true)
    (hl : ∀ a, (l.dropWhile q).head? = some a → p a = false)
    (hr : ∀ a, (l.rdropWhile q).getLast? = some a → p a = false) :
    trimBy p l = trimBy q l := by
  rw [trimBy, dropWhile_eq hqp hl, rdropWhile_dropWhile, rdropWhile_eq hqp hr,
    trimBy_eq]

/-- Where `p` stops at the left. -/
theorem head_trimBy (hqp : ∀ a, q a = true → p a = true)
    (h : (l.dropWhile q).head? = some a) (hp : p a = false) :
    (trimBy p l).head? = some a := by
  have hdrop : l.dropWhile p = l.dropWhile q := by
    refine dropWhile_eq hqp fun b hb => ?_
    rw [h] at hb
    rw [← Option.some.inj hb]
    exact hp
  obtain ⟨rest, hrest⟩ := List.head?_eq_some_iff.mp h
  rw [trimBy, hdrop, hrest, rdropWhile_cons]
  split
  · rw [hp]
    rfl
  · rfl

/-- Where `p` stops at the right. -/
theorem getLast_trimBy (hqp : ∀ a, q a = true → p a = true)
    (h : (l.rdropWhile q).getLast? = some a) (hp : p a = false) :
    (trimBy p l).getLast? = some a := by
  have hdrop : l.rdropWhile p = l.rdropWhile q := by
    refine rdropWhile_eq hqp fun b hb => ?_
    rw [h] at hb
    rw [← Option.some.inj hb]
    exact hp
  obtain ⟨rest, hrest⟩ := List.getLast?_eq_some_iff.mp h
  have hlast : [a].dropWhile p = [a] :=
    List.dropWhile_cons_of_neg (by simp [hp])
  rw [trimBy_eq, hdrop, hrest, List.dropWhile_append, hlast]
  split
  · rfl
  · exact List.getLast?_concat

end Vexil.Lib
