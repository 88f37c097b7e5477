import Mathlib.Data.Finmap
import Mathlib.Data.Finset.Sort
import Mathlib.Data.String.Basic

/-!
# The parts of Go's standard library the code leans on

A Go `map` has no order that a program can rely on, so it is a `Finmap`: two
maps with the same lookups are equal. Reading a key that is not there gives the
zero value, which for the string maps of this code is `""`.

Text is a `String`, and its length is that of its UTF-8.
-/

namespace Vexil.Lib

/-- `map[string]V`. -/
abbrev GoMap (V : Type) := Finmap fun _ : String => V

namespace GoMap

variable {V : Type}

/-- The map literal with one entry. -/
def single (k : String) (v : V) : GoMap V := (∅ : GoMap V).insert k v

theorem lookup_insert (m : GoMap V) (k k' : String) (v : V) :
    (m.insert k v).lookup k' = if k' = k then some v else m.lookup k' := by
  split
  · next h => subst h; exact Finmap.lookup_insert m
  · next h => exact Finmap.lookup_insert_of_ne m h

theorem lookup_erase (m : GoMap V) (k k' : String) :
    (m.erase k).lookup k' = if k' = k then none else m.lookup k' := by
  split
  · next h => subst h; exact Finmap.lookup_erase k' m
  · next h => exact Finmap.lookup_erase_ne h

theorem lookup_single (k k' : String) (v : V) :
    (single k v).lookup k' = if k' = k then some v else none := by
  rw [single, lookup_insert, Finmap.lookup_empty]

/-- Of entries that are put in one after the other the last one under a key
counts. -/
theorem lookup_foldl_insert (entries : List (String × V)) (m : GoMap V)
    (k : String) :
    (entries.foldl (fun m e => m.insert e.1 e.2) m).lookup k =
      ((entries.filter fun e => e.1 = k).getLast?.map Prod.snd).or
        (m.lookup k) := by
  induction entries using List.reverseRecOn with
  | nil => rfl
  | append_singleton entries e ih =>
      rw [List.foldl_append, List.foldl_cons, List.foldl_nil, lookup_insert,
        List.filter_append]
      by_cases hk : e.1 = k
      · rw [if_pos hk.symm, List.filter_cons_of_pos (by simpa using hk),
          List.filter_nil, List.getLast?_concat]
        rfl
      · rw [if_neg (Ne.symm hk), ih,
          List.filter_cons_of_neg (by simpa using hk), List.filter_nil,
          List.append_nil]

/-- `m[k]` on a map of strings. -/
def index (m : GoMap String) (k : String) : String := (m.lookup k).getD ""

theorem index_of_lookup {m : GoMap String} {k v : String}
    (h : m.lookup k = some v) : m.index k = v := by
  rw [index, h]
  rfl

/-- The orders in which `range` may go through the keys. -/
def Ranges (m : GoMap V) (ks : List String) : Prop :=
  ks.Nodup ∧ ∀ k, k ∈ ks ↔ k ∈ m

/-- The keys in ascending order, which is one of these orders. -/
def sortedKeys (m : GoMap V) : List String := m.keys.sort (· ≤ ·)

theorem ranges_sortedKeys (m : GoMap V) : m.Ranges m.sortedKeys :=
  ⟨Finset.sort_nodup m.keys (· ≤ ·), fun _ =>
    (Finset.mem_sort (· ≤ ·)).trans Finmap.mem_keys⟩

/-- What holds of every entry holds along the way. -/
theorem Ranges.forall_index {m : GoMap String} {ks : List String}
    (h : m.Ranges ks) {P : String → String → Prop}
    (hall : ∀ k v, m.lookup k = some v → P k v) :
    ∀ k ∈ ks, P k (m.index k) := by
  intro k hk
  obtain ⟨v, hv⟩ := Finmap.mem_iff.mp ((h.2 k).mp hk)
  rw [index_of_lookup hv]
  exact hall k v hv

theorem all_eq_true {f : String → V → Bool} {m : GoMap V} :
    m.all f = true ↔ ∀ k v, m.lookup k = some v → f k v = true := by
  have hfold : ∀ (es : Multiset (Σ _ : String, V)) (b : Bool)
      (_ : RightCommutative fun (b : Bool) (e : Σ _ : String, V) =>
        b && f e.1 e.2),
      es.foldl (fun b e => b && f e.1 e.2) b = true ↔
        b = true ∧ ∀ e ∈ es, f e.1 e.2 = true := by
    intro es b _
    induction es using Multiset.induction_on generalizing b with
    | empty => simp
    | cons e es ih =>
        rw [Multiset.foldl_cons, ih]
        simp [and_assoc]
  rw [Finmap.all, Finmap.foldl, hfold]
  simp only [true_and]
  constructor
  · intro h k v hv
    exact h ⟨k, v⟩ (Finmap.mem_lookup_iff.mp hv)
  · intro h e he
    exact h e.1 e.2 (Finmap.mem_lookup_iff.mpr he)

end GoMap

/-- A nil map reads like an empty one. -/
def orEmpty {V : Type} (m : Option (GoMap V)) : GoMap V := m.getD ∅

@[simp] theorem orEmpty_some {V : Type} (m : GoMap V) :
    orEmpty (some m) = m := rfl

/-! ## strings -/

/-- `strings.ReplaceAll(s, a, b)` for one-character `a` and `b`. -/
def replaceAll (s : String) (a b : Char) : String :=
  String.ofList (s.toList.map fun c => if c = a then b else c)

/-- `strings.ToUpper` on ASCII text, which object names are. -/
def toUpper (s : String) : String := String.ofList (s.toList.map Char.toUpper)

/-- `strings.ToLower` on ASCII text. -/
def toLower (s : String) : String := String.ofList (s.toList.map Char.toLower)

/-- `unicode.IsSpace`. -/
def isSpace (c : Char) : Bool :=
  (9 ≤ c.toNat ∧ c.toNat ≤ 13) ∨ c.toNat = 0x20 ∨ c.toNat = 0x85 ∨
    c.toNat = 0xA0 ∨ c.toNat = 0x1680 ∨
    (0x2000 ≤ c.toNat ∧ c.toNat ≤ 0x200A) ∨ c.toNat = 0x2028 ∨
    c.toNat = 0x2029 ∨ c.toNat = 0x202F ∨ c.toNat = 0x205F ∨
    c.toNat = 0x3000

/-- `strings.TrimSpace`. -/
def trimSpace (s : String) : String :=
  String.ofList
    ((s.toList.dropWhile isSpace).reverse.dropWhile isSpace).reverse

/-- `strings.HasPrefix`. -/
def hasPrefix (s pre : String) : Bool := pre.toList.isPrefixOf s.toList

/-- `strings.TrimPrefix`. -/
def trimPrefix (s pre : String) : String :=
  if hasPrefix s pre then String.ofList (s.toList.drop pre.toList.length) else s

/-- `strings.Contains`. -/
def contains (s sub : String) : Bool := sub.toList <:+: s.toList

/-- `s[n:]`, after `n` characters of ASCII. -/
def dropBytes (s : String) (n : Nat) : String := String.ofList (s.toList.drop n)

/-- `strings.Split(s, sep)` for a one-character separator. -/
def split (s : String) (sep : Char) : List String :=
  (s.toList.splitOn sep).map String.ofList

theorem split_of_not_mem {s : String} {c : Char} (h : c ∉ s.toList) :
    split s c = [s] := by
  rw [split, List.splitOn_eq_singleton h, List.map_singleton,
    String.ofList_toList]

theorem split_append {a b : String} {c : Char} (h : c ∉ a.toList) :
    split (a ++ String.singleton c ++ b) c = a :: split b c := by
  rw [split, String.toList_append, String.toList_append,
    String.toList_singleton, List.append_assoc, List.singleton_append,
    List.splitOn_append_cons_self_of_not_mem h, List.map_cons,
    String.ofList_toList]
  rfl

theorem split_intercalate {ps : List String} {c : Char}
    (h : ∀ p ∈ ps, c ∉ p.toList) (hps : ps ≠ []) :
    split ((String.singleton c).intercalate ps) c = ps := by
  have hmap : ∀ l ∈ ps.map String.toList, c ∉ l := by
    intro l hl
    obtain ⟨p, hp, rfl⟩ := List.mem_map.mp hl
    exact h p hp
  rw [split, String.toList_intercalate, String.toList_singleton,
    List.splitOn_intercalate c hmap (by simpa using hps), List.map_map]
  exact List.map_id'' (fun p => String.ofList_toList) ps

theorem of_mem_splitOn {α : Type} [DecidableEq α] {a : α} {xs : List α} :
    ∀ l ∈ xs.splitOn a, a ∉ l ∧ l ⊆ xs := by
  induction xs with
  | nil => simp [List.splitOn_nil]
  | cons x xs ih =>
      intro l hl
      rw [List.splitOn_cons_eq_if_modifyHead] at hl
      split at hl
      · rcases List.mem_cons.mp hl with rfl | hl
        · exact ⟨List.not_mem_nil, List.nil_subset _⟩
        · exact ⟨(ih l hl).1, List.subset_cons_of_subset x (ih l hl).2⟩
      · next hx =>
          cases hsplit : xs.splitOn a with
          | nil => exact absurd hsplit (List.splitOn_ne_nil a xs)
          | cons l' ls =>
              rw [hsplit] at hl ih
              rcases List.mem_cons.mp hl with rfl | hl
              · obtain ⟨hnot, hsub⟩ := ih l' List.mem_cons_self
                rw [List.mem_cons, not_or]
                exact ⟨⟨fun h => hx (by simp [h]), hnot⟩,
                  List.cons_subset_cons x hsub⟩
              · have hrest := ih l (.tail _ hl)
                exact ⟨hrest.1, List.subset_cons_of_subset x hrest.2⟩

theorem infix_of_mem_splitOn {α : Type} [DecidableEq α] {l p : List α} {a : α}
    (h : p ∈ l.splitOn a) : p <:+: l := by
  have hjoin : [a].intercalate (l.splitOn a) = l := List.intercalate_splitOn a
  rw [← hjoin]
  generalize l.splitOn a = ps at h
  induction ps with
  | nil => cases h
  | cons q ps ih =>
      by_cases hps : ps = []
      · subst hps
        rw [List.mem_singleton.mp h, List.intercalate_singleton]
      · rw [List.intercalate_cons_of_ne_nil hps]
        rcases List.mem_cons.mp h with rfl | h
        · exact (List.prefix_append _ _).isInfix.trans
            (List.prefix_append _ _).isInfix
        · exact (ih h).trans (List.suffix_append _ _).isInfix

/-- A part has nothing but what the text has, and no separator. -/
theorem of_mem_split {s p : String} {sep : Char} (h : p ∈ split s sep) :
    sep ∉ p.toList ∧ p.toList ⊆ s.toList := by
  obtain ⟨l, hl, rfl⟩ := List.mem_map.mp h
  rw [String.toList_ofList]
  exact of_mem_splitOn l hl

/-- What is not a separator is in one of the parts. -/
theorem mem_split_of_mem {s : String} {c : Char} (sep : Char)
    (h : c ∈ s.toList) : c = sep ∨ ∃ p ∈ split s sep, c ∈ p.toList := by
  have hparts : ∀ xs : List Char, c ∈ xs →
      c = sep ∨ ∃ l ∈ xs.splitOn sep, c ∈ l := by
    intro xs
    induction xs with
    | nil => exact fun hc => absurd hc List.not_mem_nil
    | cons x xs ih =>
        intro hc
        rw [List.splitOn_cons_eq_if_modifyHead]
        obtain ⟨l, ls, hsplit⟩ :=
          List.exists_cons_of_ne_nil (List.splitOn_ne_nil sep xs)
        split
        · next hx =>
            obtain rfl | hc := List.mem_cons.mp hc
            · exact .inl (by simpa using hx)
            · obtain hsep | ⟨part, hpart, hmem⟩ := ih hc
              · exact .inl hsep
              · exact .inr ⟨part, .tail _ hpart, hmem⟩
        · rw [hsplit] at ih ⊢
          obtain rfl | hc := List.mem_cons.mp hc
          · exact .inr ⟨c :: l, .head _, .head _⟩
          · obtain hsep | ⟨part, hpart, hmem⟩ := ih hc
            · exact .inl hsep
            · obtain rfl | hpart := List.mem_cons.mp hpart
              · exact .inr ⟨x :: part, .head _, .tail _ hmem⟩
              · exact .inr ⟨part, .tail _ hpart, hmem⟩
  obtain hsep | ⟨l, hl, hmem⟩ := hparts s.toList h
  · exact .inl hsep
  · exact .inr ⟨String.ofList l, List.mem_map_of_mem hl, by simpa using hmem⟩

/-- `strings.SplitN(s, sep, 2)` for a one-character separator. -/
def splitN2 (s : String) (sep : Char) : List String :=
  match s.toList.dropWhile (· ≠ sep) with
  | [] => [s]
  | _ :: after =>
      [String.ofList (s.toList.takeWhile (· ≠ sep)), String.ofList after]

/-! ## encoding/hex -/

def hexDigit (n : Nat) : Char :=
  if n < 10 then Char.ofNat ('0'.toNat + n) else Char.ofNat ('a'.toNat + n - 10)

/-- `hex.EncodeToString`. -/
def hexEncode (bytes : List Nat) : String :=
  String.ofList (bytes.flatMap fun b => [hexDigit (b / 16), hexDigit (b % 16)])

/-! ## strconv -/

/-- `strconv.ParseBool`. -/
def parseBool (s : String) : Option Bool :=
  if s ∈ ["1", "t", "T", "TRUE", "true", "True"] then some true
  else if s ∈ ["0", "f", "F", "FALSE", "false", "False"] then some false
  else none

/-- The digits of a decimal numeral, as the number they spell. -/
def digits : List Char → Nat → Option Nat
  | [], n => some n
  | c :: cs, n =>
      if '0' ≤ c ∧ c ≤ '9' then digits cs (10 * n + (c.toNat - '0'.toNat))
      else none

/-- `strconv.Atoi`: an optional sign, at least one decimal digit and nothing
else, and a value that fits in 64 bits. -/
def atoi (s : String) : Option Int :=
  let unsigned (cs : List Char) : Option Nat :=
    if cs = [] then none else digits cs 0
  let value : Option Int :=
    match s.toList with
    | '-' :: cs => (unsigned cs).map fun n => -(n : Int)
    | '+' :: cs => (unsigned cs).map fun n => (n : Int)
    | cs => (unsigned cs).map fun n => (n : Int)
  value.filter fun n => -(2 ^ 63) ≤ n ∧ n < 2 ^ 63

example : atoi "-42" = some (-42) := by decide

end Vexil.Lib
