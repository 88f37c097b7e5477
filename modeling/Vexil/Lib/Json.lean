import Vexil.Lib.Go

/-!
# JSON text as `encoding/json` writes it

Enough of it for objects with a fixed set of fields that hold strings and
booleans: the literals as `Marshal` writes them, with its escapes, and readers
that give back what was written and the text after it. Every reader comes with
the lemma that it undoes its writer whatever follows.

A string is read by a machine with three states, because an escape is up to six
characters long and the string has no length in front of it.
-/

namespace Vexil.Lib.Json

/-! ## Writing -/

/-- `\\u` and four digits, for a number below `2 ^ 16`. -/
def hexEscape (n : Nat) : List Char :=
  ['\\', 'u', hexDigit (n / 4096 % 16), hexDigit (n / 256 % 16),
    hexDigit (n / 16 % 16), hexDigit (n % 16)]

/-- The characters that are written as a number: control characters, those that
mean something in HTML, and the two line separators. -/
def needsHex (c : Char) : Bool :=
  c.toNat < 32 || c ∈ ['<', '>', '&'] || c.toNat = 0x2028 || c.toNat = 0x2029

/-- The characters that have an escape of their own, and its letter. -/
def shortForms : List (Char × Char) :=
  [('"', '"'), ('\\', '\\'), (Char.ofNat 8, 'b'), (Char.ofNat 12, 'f'),
    ('\n', 'n'), ('\r', 'r'), ('\t', 't')]

def escapeChar (c : Char) : List Char :=
  match shortForms.find? fun p => p.1 = c with
  | some p => ['\\', p.2]
  | none => if needsHex c then hexEscape c.toNat else [c]

def marshalString (s : String) : List Char :=
  '"' :: (s.toList.flatMap escapeChar ++ ['"'])

def marshalBool (b : Bool) : List Char :=
  if b then ['t', 'r', 'u', 'e'] else ['f', 'a', 'l', 's', 'e']

/-! ## Reading -/

/-- A text that has to be there. -/
def literal (text : List Char) (cs : List Char) : Option (List Char) :=
  if text.isPrefixOf cs then some (cs.drop text.length) else none

theorem literal_append (text rest : List Char) :
    literal text (text ++ rest) = some rest := by
  rw [literal, if_pos (by simp), List.drop_left]

def hexValue (c : Char) : Option Nat :=
  if '0' ≤ c ∧ c ≤ '9' then some (c.toNat - '0'.toNat)
  else if 'a' ≤ c ∧ c ≤ 'f' then some (c.toNat - 'a'.toNat + 10)
  else none

theorem hexValue_hexDigit {n : Nat} (h : n < 16) :
    hexValue (hexDigit n) = some n := by
  have hall : ∀ n : Fin 16, hexValue (hexDigit n) = some n.val := by decide
  exact hall ⟨n, h⟩

/-- The character of a short escape. -/
def shortEscape (e : Char) : Option Char :=
  if e = '/' then some '/'
  else (shortForms.find? fun p => p.2 = e).map Prod.fst

theorem shortForms_valid : ∀ p ∈ shortForms,
    shortEscape p.2 = some p.1 ∧ p.2 ≠ 'u' ∧ 32 ≤ p.2.toNat := by decide

/-- Inside a string: between characters, after a backslash, or with a number of
hex digits still to come after those that spell `n`. -/
inductive InString where
  | plain
  | escape
  | hex (left n : Nat)

def readChars : InString → List Char → Option (List Char × List Char)
  | _, [] => none
  | .plain, c :: rest =>
      if c = '"' then some ([], rest)
      else if c = '\\' then readChars .escape rest
      else (readChars .plain rest).map fun r => (c :: r.1, r.2)
  | .escape, c :: rest =>
      if c = 'u' then readChars (.hex 3 0) rest
      else
        match shortEscape c with
        | none => none
        | some c => (readChars .plain rest).map fun r => (c :: r.1, r.2)
  | .hex left n, c :: rest =>
      match hexValue c with
      | none => none
      | some d =>
          match left with
          | 0 => (readChars .plain rest).map fun r =>
              (Char.ofNat (16 * n + d) :: r.1, r.2)
          | left + 1 => readChars (.hex left (16 * n + d)) rest

def unmarshalString (cs : List Char) : Option (String × List Char) :=
  match cs with
  | '"' :: rest =>
      (readChars .plain rest).map fun r => (String.ofList r.1, r.2)
  | _ => none

def unmarshalBool (cs : List Char) : Option (Bool × List Char) :=
  match literal (marshalBool true) cs with
  | some rest => some (true, rest)
  | none => (literal (marshalBool false) cs).map fun rest => (false, rest)

/-! ## Reading undoes writing -/

theorem readChars_hexEscape {n : Nat} (hn : n < 65536) (rest : List Char) :
    readChars .plain (hexEscape n ++ rest) =
      (readChars .plain rest).map fun r => (Char.ofNat n :: r.1, r.2) := by
  have hdigit : ∀ m, hexValue (hexDigit (m % 16)) = some (m % 16) :=
    fun m => hexValue_hexDigit (Nat.mod_lt m (by omega))
  have hvalue : 16 * (16 * (16 * (16 * 0 + n / 4096 % 16) + n / 256 % 16) +
      n / 16 % 16) + n % 16 = n := by omega
  simp only [hexEscape, List.cons_append, List.nil_append, readChars]
  simp only [hdigit, hvalue]
  rfl

theorem toNat_lt_of_needsHex {c : Char} (h : needsHex c = true) :
    c.toNat < 65536 := by
  unfold needsHex at h
  simp only [Bool.or_eq_true, decide_eq_true_eq, List.mem_cons,
    List.not_mem_nil, or_false] at h
  rcases h with ((h | rfl | rfl | rfl) | h) | h
  · omega
  · decide
  · decide
  · decide
  · omega
  · omega

theorem readChars_escapeChar (c : Char) (rest : List Char) :
    readChars .plain (escapeChar c ++ rest) =
      (readChars .plain rest).map fun r => (c :: r.1, r.2) := by
  unfold escapeChar
  split
  · next p hp =>
      obtain ⟨hshort, hu, _⟩ :=
        shortForms_valid p (List.mem_of_find?_eq_some hp)
      have hc : p.1 = c := by simpa using List.find?_some hp
      subst hc
      show readChars .escape (p.2 :: rest) = _
      rw [readChars, if_neg hu, hshort]
  · next hnone =>
      have hne : ∀ p ∈ shortForms, c ≠ p.1 := by
        rw [List.find?_eq_none] at hnone
        intro p hp h
        exact hnone p hp (by simp [h])
      split
      · next h =>
          rw [readChars_hexEscape (toNat_lt_of_needsHex h), Char.ofNat_toNat]
      · rw [List.singleton_append, readChars,
          if_neg (hne ('"', '"') (by decide)),
          if_neg (hne ('\\', '\\') (by decide))]

theorem readChars_escaped (cs rest : List Char) :
    readChars .plain (cs.flatMap escapeChar ++ '"' :: rest) =
      some (cs, rest) := by
  induction cs with
  | nil => rfl
  | cons c cs ih =>
      rw [List.flatMap_cons, List.append_assoc, readChars_escapeChar, ih]
      rfl

theorem unmarshalString_marshalString (s : String) (rest : List Char) :
    unmarshalString (marshalString s ++ rest) = some (s, rest) := by
  rw [marshalString, List.cons_append, List.append_assoc,
    List.singleton_append]
  show (readChars .plain (s.toList.flatMap escapeChar ++ '"' :: rest)).map _ = _
  rw [readChars_escaped, Option.map_some, String.ofList_toList]

theorem unmarshalBool_marshalBool (b : Bool) (rest : List Char) :
    unmarshalBool (marshalBool b ++ rest) = some (b, rest) := by
  cases b with
  | true =>
      rw [unmarshalBool, literal_append]
  | false =>
      have hno : literal (marshalBool true) (marshalBool false ++ rest) =
          none := by simp [literal, marshalBool]
      rw [unmarshalBool, hno]
      show (literal (marshalBool false) (marshalBool false ++ rest)).map _ = _
      rw [literal_append]
      rfl

/-! ## There are no control characters in it -/

/-- Nothing below the space. -/
def Printable (cs : List Char) : Prop := ∀ c ∈ cs, 32 ≤ c.toNat

instance (cs : List Char) : Decidable (Printable cs) :=
  List.decidableBAll _ cs

theorem Printable.append {cs ds : List Char} (h : Printable cs)
    (h' : Printable ds) : Printable (cs ++ ds) := by
  intro c hc
  rcases List.mem_append.mp hc with hc | hc
  · exact h c hc
  · exact h' c hc

theorem printable_hexEscape (n : Nat) : Printable (hexEscape n) := by
  have hdigit : ∀ m, 32 ≤ (hexDigit (m % 16)).toNat := by
    have hall : ∀ d : Fin 16, 32 ≤ (hexDigit d).toNat := by decide
    exact fun m => hall ⟨m % 16, Nat.mod_lt m (by omega)⟩
  unfold Printable hexEscape
  simp only [List.forall_mem_cons, hdigit, List.not_mem_nil, false_implies,
    implies_true, and_true]
  decide

theorem printable_escapeChar (c : Char) : Printable (escapeChar c) := by
  unfold escapeChar
  split
  · next p hp =>
      have hletter := (shortForms_valid p (List.mem_of_find?_eq_some hp)).2.2
      intro d hd
      rcases List.mem_cons.mp hd with rfl | hd
      · decide
      · rw [List.mem_singleton.mp hd]
        exact hletter
  · split
    · exact printable_hexEscape _
    · next h =>
        intro d hd
        rw [List.mem_singleton.mp hd]
        simp only [needsHex, Bool.or_eq_true, decide_eq_true_eq] at h
        omega

theorem printable_marshalString (s : String) :
    Printable (marshalString s) := by
  have hbody : Printable (s.toList.flatMap escapeChar) := by
    intro c hc
    obtain ⟨d, _, hd⟩ := List.mem_flatMap.mp hc
    exact printable_escapeChar d c hd
  intro c hc
  rcases List.mem_cons.mp hc with rfl | hc
  · decide
  · exact hbody.append (by decide) c hc

theorem printable_marshalBool (b : Bool) : Printable (marshalBool b) := by
  cases b with
  | true => decide
  | false => decide

/-! ## Length -/

theorem length_le_flatMap_escapeChar (cs : List Char) :
    cs.length ≤ (cs.flatMap escapeChar).length := by
  induction cs with
  | nil => exact Nat.le_refl 0
  | cons c cs ih =>
      have hone : 1 ≤ (escapeChar c).length := by
        unfold escapeChar
        split
        · simp
        · split
          · simp [hexEscape]
          · simp
      rw [List.flatMap_cons, List.length_append, List.length_cons]
      omega

theorem length_le_marshalString (s : String) :
    s.toList.length ≤ (marshalString s).length := by
  have h := length_le_flatMap_escapeChar s.toList
  rw [marshalString, List.length_cons, List.length_append]
  omega

end Vexil.Lib.Json
