import Vexil.Lib.Go

/-!
# The names that Kubernetes admits

The keys and the values of labels, and the keys of a ConfigMap, as the API
server validates them. A regular expression `X([XY]*X)?` says which characters
stand at both ends and which ones may stand between them, so it is given as
these two sets.

What the code relies on is only which characters such a name can have at all:
`LabelChar` and `ConfigMapKey.chars`.
-/

namespace Vexil.Kube

open Vexil.Lib

/-- `X([XY]*X)?`, where `X` are the characters of `ends` and `Y` those of
`inner`. -/
def Enclosed (ends inner : Char → Bool) (s : String) : Prop :=
  (∀ c ∈ s.toList, ends c ∨ inner c) ∧ (∀ c ∈ s.toList.head?, ends c) ∧
    (∀ c ∈ s.toList.getLast?, ends c) ∧ s ≠ ""

instance (ends inner : Char → Bool) (s : String) :
    Decidable (Enclosed ends inner s) :=
  @instDecidableAnd _ _ (List.decidableBAll _ _) <|
    @instDecidableAnd _ _ (Option.decidableForallMem _) <|
      @instDecidableAnd _ _ (Option.decidableForallMem _) inferInstance

/-- `[-A-Za-z0-9_.]` without the letters and digits. -/
def isJoint (c : Char) : Bool := c ∈ ['-', '_', '.']

/-- A name of up to 63 characters. -/
def NamePart (s : String) : Prop :=
  Enclosed Char.isAlphanum isJoint s ∧ s.length ≤ 63

instance (s : String) : Decidable (NamePart s) :=
  inferInstanceAs (Decidable (_ ∧ _))

/-- `[a-z0-9]`. -/
def isDNSChar (c : Char) : Bool := c.isLower || c.isDigit

/-- A DNS subdomain. -/
def Subdomain (s : String) : Prop :=
  (∀ part ∈ split s '.', Enclosed isDNSChar (· = '-') part) ∧ s.length ≤ 253

instance (s : String) : Decidable (Subdomain s) :=
  @instDecidableAnd _ _ (List.decidableBAll _ _) inferInstance

/-- The key of a label: a name, and a domain with a `/` in front of it or
not. -/
def LabelKey (k : String) : Prop :=
  match split k '/' with
  | [name] => NamePart name
  | [domain, name] => Subdomain domain ∧ NamePart name
  | _ => False

instance (k : String) : Decidable (LabelKey k) := by
  unfold LabelKey
  split <;> infer_instance

/-- The value of a label. -/
def LabelValue (v : String) : Prop := v = "" ∨ NamePart v

instance (v : String) : Decidable (LabelValue v) :=
  inferInstanceAs (Decidable (_ ∨ _))

/-- The key of a ConfigMap. -/
def ConfigMapKey (k : String) : Prop :=
  (∀ c ∈ k.toList, c.isAlphanum ∨ isJoint c) ∧ k.length ≤ 253 ∧ k ≠ "" ∧
    k ≠ "." ∧ hasPrefix k ".." = false

instance (k : String) : Decidable (ConfigMapKey k) :=
  @instDecidableAnd _ _ (List.decidableBAll _ _) inferInstance

/-! ## Their characters -/

/-- What a label is made of, key or value. -/
def LabelChar (c : Char) : Prop := c.isAlphanum ∨ isJoint c ∨ c = '/'

theorem NamePart.chars {s : String} (h : NamePart s) :
    ∀ c ∈ s.toList, LabelChar c :=
  fun c hc => (h.1.1 c hc).imp_right .inl

theorem Subdomain.chars {s : String} (h : Subdomain s) :
    ∀ c ∈ s.toList, LabelChar c := by
  intro c hc
  obtain rfl | ⟨part, hpart, hmem⟩ := mem_split_of_mem '.' hc
  · exact .inr (.inl (by decide))
  · obtain hdns | hdash := (h.1 part hpart).1 c hmem
    · left
      rw [isDNSChar, Bool.or_eq_true] at hdns
      show (c.isUpper || c.isLower || c.isDigit) = true
      obtain hlower | hdigit := hdns
      · rw [hlower, Bool.or_true, Bool.true_or]
      · rw [hdigit, Bool.or_true]
    · obtain rfl : c = '-' := of_decide_eq_true hdash
      exact .inr (.inl (by decide))

theorem LabelKey.chars {k : String} (h : LabelKey k) :
    ∀ c ∈ k.toList, LabelChar c := by
  intro c hc
  obtain rfl | ⟨part, hpart, hmem⟩ := mem_split_of_mem '/' hc
  · exact .inr (.inr rfl)
  · unfold LabelKey at h
    split at h
    · next name hsplit =>
        rw [hsplit, List.mem_singleton] at hpart
        exact h.chars c (hpart ▸ hmem)
    · next domain name hsplit =>
        rw [hsplit, List.mem_cons, List.mem_singleton] at hpart
        obtain rfl | rfl := hpart
        · exact h.1.chars c hmem
        · exact h.2.chars c hmem
    · exact h.elim

theorem LabelValue.chars {v : String} (h : LabelValue v) :
    ∀ c ∈ v.toList, LabelChar c := by
  obtain rfl | h := h
  · intro c hc
    cases hc
  · exact h.chars

theorem isAlphanum_bounds {c : Char} (h : c.isAlphanum = true) :
    (48 ≤ c.toNat ∧ c.toNat ≤ 57) ∨ (65 ≤ c.toNat ∧ c.toNat ≤ 90) ∨
      (97 ≤ c.toNat ∧ c.toNat ≤ 122) := by
  have hranges : (decide ('A'.val ≤ c.val ∧ c.val ≤ 'Z'.val) ||
      ('a'.val ≤ c.val && c.val ≤ 'z'.val) ||
      ('0'.val ≤ c.val && c.val ≤ '9'.val)) = true := h
  have hbounds : ((65 ≤ c.toNat ∧ c.toNat ≤ 90) ∨
      (97 ≤ c.toNat ∧ c.toNat ≤ 122)) ∨ (48 ≤ c.toNat ∧ c.toNat ≤ 57) := by
    simpa [UInt32.le_iff_toNat_le] using hranges
  omega

/-- Between `-` and `z`, and no `=`. -/
theorem LabelChar.bounds {c : Char} (h : LabelChar c) :
    45 ≤ c.toNat ∧ c.toNat ≤ 122 ∧ c.toNat ≠ 61 := by
  obtain halnum | hjoint | rfl := h
  · have hbounds := isAlphanum_bounds halnum
    omega
  · have hmem : c ∈ ['-', '_', '.'] := of_decide_eq_true hjoint
    simp only [List.mem_cons, List.not_mem_nil, or_false] at hmem
    obtain rfl | rfl | rfl := hmem <;> decide
  · decide

end Vexil.Kube
