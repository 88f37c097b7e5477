import Mathlib.Data.List.TakeWhile
import Vexil.Lib.Go

/-!
# Decimal numerals

What integer parsers have in common. A numeral is an optional sign and at least
one decimal digit. A parser takes some text around it, or reads the front of a
longer text, and stands for the integer or refuses it as too large; the scan in
the middle is `splitSign` and `spell` for all of them.
-/

namespace Vexil.Lib

/-- The number a run of digits spells. -/
def spell (ds : List Char) : Nat :=
  ds.foldl (fun n c => 10 * n + (c.toNat - '0'.toNat)) 0

/-- An optional sign off the front: whether it is a minus, and the rest. -/
def splitSign : List Char → Bool × List Char
  | '-' :: cs => (true, cs)
  | '+' :: cs => (false, cs)
  | cs => (false, cs)

def withSign (negative : Bool) (n : Nat) : Int :=
  if negative then -(n : Int) else n

/-- An optional sign and at least one digit, and nothing else. -/
def Numeral (cs : List Char) : Prop :=
  (splitSign cs).2 ≠ [] ∧ ∀ c ∈ (splitSign cs).2, c.isDigit

instance (cs : List Char) : Decidable (Numeral cs) :=
  @instDecidableAnd _ _ inferInstance (List.decidableBAll _ _)

/-- The integer a numeral stands for. -/
def numeralValue (cs : List Char) : Int :=
  withSign (splitSign cs).1 (spell (splitSign cs).2)

/-- The text begins with a numeral: an optional sign and a digit. -/
def LedByNumeral (cs : List Char) : Prop :=
  (splitSign cs).2.takeWhile Char.isDigit ≠ []

instance (cs : List Char) : Decidable (LedByNumeral cs) :=
  inferInstanceAs (Decidable (_ ≠ _))

/-- The integers of 32 bits. -/
def Int32Range (n : Int) : Prop := -(2 ^ 31) ≤ n ∧ n < 2 ^ 31

instance (n : Int) : Decidable (Int32Range n) :=
  inferInstanceAs (Decidable (_ ∧ _))

/-! ## The front of a text -/

theorem isDigit_bounds {c : Char} (h : c.isDigit = true) :
    48 ≤ c.toNat ∧ c.toNat ≤ 57 := by
  simpa [Char.isDigit, UInt32.le_iff_toNat_le] using h

/-- A sign is taken off, or there is none to take. -/
theorem splitSign_cases (cs : List Char) :
    (∃ rest, cs = '-' :: rest ∧ splitSign cs = (true, rest)) ∨
      (∃ rest, cs = '+' :: rest ∧ splitSign cs = (false, rest)) ∨
        splitSign cs = (false, cs) := by
  unfold splitSign
  split
  · next rest => exact .inl ⟨rest, rfl, rfl⟩
  · next rest => exact .inr (.inl ⟨rest, rfl, rfl⟩)
  · exact .inr (.inr rfl)

theorem splitSign_of_digit {c : Char} {cs : List Char} (h : c.isDigit = true) :
    splitSign (c :: cs) = (false, c :: cs) := by
  obtain ⟨_, heq, _⟩ | ⟨_, heq, _⟩ | hsame := splitSign_cases (c :: cs)
  · cases heq
    exact absurd h (by decide)
  · cases heq
    exact absurd h (by decide)
  · exact hsame

theorem splitSign_append (cs : List Char) :
    ∃ sign, sign ∈ [[], ['-'], ['+']] ∧ cs = sign ++ (splitSign cs).2 := by
  obtain ⟨rest, rfl, h⟩ | ⟨rest, rfl, h⟩ | h := splitSign_cases cs
  · exact ⟨['-'], by simp, by rw [h]; rfl⟩
  · exact ⟨['+'], by simp, by rw [h]; rfl⟩
  · exact ⟨[], by simp, by rw [h]; rfl⟩

theorem splitSign_signed {sign cs : List Char}
    (hsign : sign ∈ [[], ['-'], ['+']])
    (hcs : ∃ c rest, cs = c :: rest ∧ c.isDigit = true) :
    (splitSign (sign ++ cs)).2 = cs := by
  obtain ⟨c, rest, rfl, hc⟩ := hcs
  simp only [List.mem_cons, List.not_mem_nil, or_false] at hsign
  obtain rfl | rfl | rfl := hsign
  · rw [List.nil_append, splitSign_of_digit hc]
  · rfl
  · rfl

/-- A text led by a numeral starts with a sign or a digit. -/
theorem LedByNumeral.head {cs : List Char} (h : LedByNumeral cs) :
    ∃ c rest, cs = c :: rest ∧ (c = '-' ∨ c = '+' ∨ c.isDigit = true) := by
  obtain ⟨rest, rfl, _⟩ | ⟨rest, rfl, _⟩ | hsame := splitSign_cases cs
  · exact ⟨'-', rest, rfl, .inl rfl⟩
  · exact ⟨'+', rest, rfl, .inr (.inl rfl)⟩
  · rw [LedByNumeral, hsame] at h
    cases cs with
    | nil => exact absurd rfl h
    | cons c rest =>
        refine ⟨c, rest, rfl, .inr (.inr ?_)⟩
        by_contra hc
        exact h (List.takeWhile_cons_of_neg hc)

theorem Numeral.led {cs : List Char} (h : Numeral cs) : LedByNumeral cs := by
  obtain ⟨hne, hall⟩ := h
  rw [LedByNumeral, List.takeWhile_eq_self_iff.mpr hall]
  exact hne

theorem Numeral.takeWhile {cs : List Char} (h : Numeral cs) :
    (splitSign cs).2.takeWhile Char.isDigit = (splitSign cs).2 :=
  List.takeWhile_eq_self_iff.mpr h.2

theorem Numeral.dropWhile {cs : List Char} (h : Numeral cs) :
    (splitSign cs).2.dropWhile Char.isDigit = [] :=
  List.dropWhile_eq_nil_iff.mpr h.2

theorem Numeral.ascii {cs : List Char} (h : Numeral cs) :
    ∀ c ∈ cs, c.toNat < 128 := by
  obtain ⟨sign, hsign, heq⟩ := splitSign_append cs
  rw [heq]
  intro c hc
  obtain hc | hc := List.mem_append.mp hc
  · simp only [List.mem_cons, List.not_mem_nil, or_false] at hsign
    obtain rfl | rfl | rfl := hsign
    · cases hc
    · rw [List.mem_singleton.mp hc]
      decide
    · rw [List.mem_singleton.mp hc]
      decide
  · have hbounds := isDigit_bounds (h.2 c hc)
    omega

/-- What is skipped before a numeral stops where the numeral starts. -/
theorem LedByNumeral.dropWhile_append {skip : Char → Bool}
    (hskip : ∀ c, c = '-' ∨ c = '+' ∨ c.isDigit = true → skip c = false)
    {ws cs : List Char} (hws : ∀ c ∈ ws, skip c = true) (h : LedByNumeral cs) :
    (ws ++ cs).dropWhile skip = cs := by
  obtain ⟨c, rest, rfl, hc⟩ := h.head
  rw [List.dropWhile_append_of_pos hws, List.dropWhile_cons_of_neg]
  simp [hskip c hc]

theorem Numeral.dropWhile_skip {skip : Char → Bool}
    (hskip : ∀ c, c = '-' ∨ c = '+' ∨ c.isDigit = true → skip c = false)
    {cs : List Char} (h : Numeral cs) : cs.dropWhile skip = cs := by
  have hws : ∀ c ∈ ([] : List Char), skip c = true := by
    intro c hc
    cases hc
  exact h.led.dropWhile_append hskip hws

/-- A numeral leads a text after some skipped characters exactly when it leads
what is left after all of them. -/
theorem led_dropWhile {skip : Char → Bool}
    (hskip : ∀ c, c = '-' ∨ c = '+' ∨ c.isDigit = true → skip c = false)
    {cs : List Char} :
    LedByNumeral (cs.dropWhile skip) ↔
      ∃ ws rest, cs = ws ++ rest ∧ (∀ c ∈ ws, skip c = true) ∧
        LedByNumeral rest := by
  constructor
  · intro h
    refine ⟨cs.takeWhile skip, cs.dropWhile skip, ?_, ?_, h⟩
    · exact List.takeWhile_append_dropWhile.symm
    · intro c hc
      exact List.mem_takeWhile_imp hc
  · rintro ⟨ws, rest, rfl, hws, hrest⟩
    rw [hrest.dropWhile_append hskip hws]
    exact hrest

/-! ## `strconv.Atoi` -/

theorem isDigit_iff {c : Char} : c.isDigit = true ↔ '0' ≤ c ∧ c ≤ '9' := by
  simp [Char.isDigit, Char.le_def]

theorem digits_eq (cs : List Char) (n : Nat) :
    digits cs n = if cs.all Char.isDigit then
      some (cs.foldl (fun n c => 10 * n + (c.toNat - '0'.toNat)) n)
      else none := by
  induction cs generalizing n with
  | nil => simp [digits]
  | cons c cs ih =>
      rw [digits]
      by_cases hc : c.isDigit = true
      · rw [if_pos (isDigit_iff.mp hc), ih]
        simp [hc]
      · rw [if_neg (mt isDigit_iff.mpr hc), if_neg]
        intro hall
        exact hc (List.all_eq_true.mp hall c List.mem_cons_self)

/-- `Atoi` reads the numerals of 64 bits. -/
theorem atoi_eq (s : String) :
    atoi s = if Numeral s.toList then
      (some (numeralValue s.toList)).filter
        fun n => -(2 ^ 63) ≤ n ∧ n < 2 ^ 63 else none := by
  unfold atoi
  generalize s.toList = text
  have hunsigned : ∀ cs negative, splitSign text = (negative, cs) →
      (if cs = [] then none else digits cs 0) =
        if Numeral text then some (spell cs) else none := by
    intro cs negative hsplit
    have hiff : Numeral text ↔ cs ≠ [] ∧ ∀ c ∈ cs, c.isDigit = true := by
      rw [Numeral, hsplit]
    by_cases hnil : cs = []
    · rw [if_pos hnil, if_neg fun h => (hiff.mp h).1 hnil]
    · rw [if_neg hnil, digits_eq]
      simp only [hiff, ne_eq, hnil, not_false_eq_true, true_and,
        List.all_eq_true, spell]
  rw [numeralValue]
  split
  · next cs =>
      dsimp only
      rw [hunsigned cs true rfl]
      split <;> rfl
  · next cs =>
      dsimp only
      rw [hunsigned cs false rfl]
      split <;> rfl
  · next hminus hplus =>
      have hsplit : splitSign text = (false, text) := by
        obtain ⟨rest, h, _⟩ | ⟨rest, h, _⟩ | h := splitSign_cases text
        · exact absurd h (hminus rest)
        · exact absurd h (hplus rest)
        · exact h
      dsimp only
      rw [hunsigned text false hsplit, hsplit]
      split <;> rfl

end Vexil.Lib
