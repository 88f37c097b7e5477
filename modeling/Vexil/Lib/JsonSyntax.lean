import Mathlib.Data.List.TakeWhile
import Vexil.Lib.Json
import Vexil.Lib.JsonValue

/-!
# JSON text

A document as `encoding/json` writes it, and a reader for any document. What
follows an element says whether there is another one, and so does the writer
produce it: an array is its first element and the rest of them, each after a
comma, up to the bracket. The reader takes the same way, so `readValue_write` is
an induction over the document in which every case is one step of the reader.

The reader gets as many steps as the text has characters. Every bracket and
every comma pays for one, which is all a document needs.

A number is read by its characters first and by its grammar then. That comes to
the same as the grammar alone, because what may follow a number is none of its
characters.
-/

namespace Vexil.Lib.Json

/-! ## Writing -/

def writeChar : JsonChar → List Char
  | .scalar c => escapeChar c
  | .surrogate n => hexEscape n

def writeText (s : JsonText) : List Char := '"' :: (s.flatMap writeChar ++ ['"'])

mutual

/-- `json.Marshal`. -/
def write : JsonValue → List Char
  | .null => ['n', 'u', 'l', 'l']
  | .bool b => marshalBool b
  | .number numeral => numeral.toList
  | .string s => writeText s
  | .array [] => ['[', ']']
  | .array (v :: elems) => '[' :: (write v ++ writeElems elems)
  | .object [] => ['\x7b', '\x7d']
  | .object ((k, v) :: members) =>
      '\x7b' :: (writeText k ++ ':' :: (write v ++ writeMembers members))

/-- What follows an element. -/
def writeElems : List JsonValue → List Char
  | [] => [']']
  | v :: elems => ',' :: (write v ++ writeElems elems)

/-- What follows a member. -/
def writeMembers : List (JsonText × JsonValue) → List Char
  | [] => ['\x7d']
  | (k, v) :: members =>
      ',' :: (writeText k ++ ':' :: (write v ++ writeMembers members))

end

/-! ## Reading -/

def isBlank (c : Char) : Bool := c ∈ [' ', '\t', '\n', '\r']

def skipBlanks (cs : List Char) : List Char := cs.dropWhile isBlank

/-- The value of a hex digit, in either case. -/
def unhexDigit (c : Char) : Option Nat :=
  if 'A' ≤ c ∧ c ≤ 'F' then some (c.toNat - 'A'.toNat + 10) else hexValue c

/-- A number of four hex digits, as a unit of UTF-16. -/
def codeUnit (n : Nat) : JsonChar :=
  if 0xD800 ≤ n ∧ n < 0xE000 then .surrogate n else .scalar (Char.ofNat n)

/-- The rest of a string, unit by unit. -/
def readUnits : InString → List Char → Option (JsonText × List Char)
  | _, [] => none
  | .plain, c :: rest =>
      if c = '"' then some ([], rest)
      else if c = '\\' then readUnits .escape rest
      else if c.toNat < 32 then none
      else (readUnits .plain rest).map fun r => (.scalar c :: r.1, r.2)
  | .escape, c :: rest =>
      if c = 'u' then readUnits (.hex 3 0) rest
      else
        match shortEscape c with
        | none => none
        | some c =>
            (readUnits .plain rest).map fun r => (.scalar c :: r.1, r.2)
  | .hex left n, c :: rest =>
      match unhexDigit c with
      | none => none
      | some d =>
          match left with
          | 0 => (readUnits .plain rest).map fun r =>
              (codeUnit (16 * n + d) :: r.1, r.2)
          | left + 1 => readUnits (.hex left (16 * n + d)) rest

/-- Two halves make a character. -/
def pairUp : JsonText → JsonText
  | [] => []
  | [c] => [c]
  | .surrogate high :: .surrogate low :: s =>
      if high < 0xDC00 ∧ 0xDC00 ≤ low then
        .scalar (Char.ofNat
          (0x10000 + (high - 0xD800) * 0x400 + (low - 0xDC00))) :: pairUp s
      else .surrogate high :: pairUp (.surrogate low :: s)
  | c :: d :: s => c :: pairUp (d :: s)

/-- The rest of a string. -/
def readText (cs : List Char) : Option (JsonText × List Char) :=
  (readUnits .plain cs).map fun r => (pairUp r.1, r.2)

/-! ### Numbers -/

def isNumeralChar (c : Char) : Bool :=
  c.isDigit || c ∈ ['-', '+', '.', 'e', 'E']

/-- After one digit or more. -/
def dropDigits : List Char → Option (List Char)
  | [] => none
  | c :: cs => if c.isDigit then some (cs.dropWhile Char.isDigit) else none

def dropInteger : List Char → Option (List Char)
  | '0' :: cs => some cs
  | '-' :: '0' :: cs => some cs
  | '-' :: cs => dropDigits cs
  | cs => dropDigits cs

def dropFraction : List Char → Option (List Char)
  | '.' :: cs => dropDigits cs
  | cs => some cs

def dropSign : List Char → List Char
  | '+' :: cs => cs
  | '-' :: cs => cs
  | cs => cs

def dropExponent : List Char → Option (List Char)
  | 'e' :: cs => dropDigits (dropSign cs)
  | 'E' :: cs => dropDigits (dropSign cs)
  | cs => some cs

/-- The grammar of numbers. -/
def isNumeral (cs : List Char) : Bool :=
  cs.all isNumeralChar &&
    ((dropInteger cs).bind dropFraction).bind dropExponent = some []

def readNumber (cs : List Char) : Option (JsonValue × List Char) :=
  if isNumeral (cs.takeWhile isNumeralChar) then
    some (.number (String.ofList (cs.takeWhile isNumeralChar)),
      cs.dropWhile isNumeralChar)
  else none

/-- Null, a truth value or a number. -/
def readScalar (cs : List Char) : Option (JsonValue × List Char) :=
  match literal ['n', 'u', 'l', 'l'] cs with
  | some rest => some (.null, rest)
  | none =>
      match unmarshalBool cs with
      | some (b, rest) => some (.bool b, rest)
      | none => readNumber cs

/-! ### Values -/

/-- After the one character that has to come next. -/
def expect (c : Char) (cs : List Char) : Option (List Char) :=
  literal [c] (skipBlanks cs)

/-- A key and the colon. -/
def readKey (cs : List Char) : Option (JsonText × List Char) :=
  match expect '"' cs with
  | none => none
  | some cs =>
      match readText cs with
      | none => none
      | some (k, cs) => (expect ':' cs).map fun cs => (k, cs)

mutual

def readValue : Nat → List Char → Option (JsonValue × List Char)
  | 0, _ => none
  | n + 1, cs =>
      match expect '"' cs with
      | some cs => (readText cs).map fun r => (.string r.1, r.2)
      | none =>
          match expect '[' cs with
          | some cs =>
              match expect ']' cs with
              | some cs => some (.array [], cs)
              | none => (readElems n cs).map fun r => (.array r.1, r.2)
          | none =>
              match expect '\x7b' cs with
              | some cs =>
                  match expect '\x7d' cs with
                  | some cs => some (.object [], cs)
                  | none => (readMembers n cs).map fun r => (.object r.1, r.2)
              | none => readScalar (skipBlanks cs)

/-- An element and all that follow it. -/
def readElems : Nat → List Char → Option (List JsonValue × List Char)
  | 0, _ => none
  | n + 1, cs =>
      match readValue n cs with
      | none => none
      | some (v, cs) =>
          match expect ',' cs with
          | some cs => (readElems n cs).map fun r => (v :: r.1, r.2)
          | none => (expect ']' cs).map fun cs => ([v], cs)

/-- A member and all that follow it. -/
def readMembers :
    Nat → List Char → Option (List (JsonText × JsonValue) × List Char)
  | 0, _ => none
  | n + 1, cs =>
      match readKey cs with
      | none => none
      | some (k, cs) =>
          match readValue n cs with
          | none => none
          | some (v, cs) =>
              match expect ',' cs with
              | some cs => (readMembers n cs).map fun r => ((k, v) :: r.1, r.2)
              | none => (expect '\x7d' cs).map fun cs => ([(k, v)], cs)

end

/-- The first document of a text, and what follows it. -/
def readFirst (cs : List Char) : Option (JsonValue × List Char) :=
  readValue (cs.length + 1) cs

/-- A text that is one document. -/
def read (cs : List Char) : Option JsonValue :=
  match readFirst cs with
  | some (v, rest) => if skipBlanks rest = [] then some v else none
  | none => none

/-! ## Reading undoes writing -/

/-- No two halves that stand next to each other, and nothing else that is no
character. -/
def isPaired (s : JsonText) : Bool :=
  pairUp s = s && s.all fun
    | .scalar _ => true
    | .surrogate n => 0xD800 ≤ n ∧ n < 0xE000

mutual

/-- The document is one that can be written down. -/
def isWritable : JsonValue → Bool
  | .null => true
  | .bool _ => true
  | .number numeral => isNumeral numeral.toList
  | .string s => isPaired s
  | .array elems => areWritable elems
  | .object members => membersWritable members

def areWritable : List JsonValue → Bool
  | [] => true
  | v :: elems => isWritable v && areWritable elems

def membersWritable : List (JsonText × JsonValue) → Bool
  | [] => true
  | (k, v) :: members =>
      isPaired k && isWritable v && membersWritable members

end

/-! ### Text -/

theorem codeUnit_toNat (c : Char) : codeUnit c.toNat = .scalar c := by
  have hvalid : c.toNat < 0xD800 ∨ 0xDFFF < c.toNat := by
    obtain h | h := c.valid
    · exact .inl h
    · exact .inr h.1
  rw [codeUnit, if_neg (by omega), Char.ofNat_toNat]

theorem readUnits_hexEscape {n : Nat} (hn : n < 65536) (rest : List Char) :
    readUnits .plain (hexEscape n ++ rest) =
      (readUnits .plain rest).map fun r => (codeUnit n :: r.1, r.2) := by
  have hall : ∀ n : Fin 16, unhexDigit (hexDigit n) = some n.val := by decide
  have hdigit : ∀ m, unhexDigit (hexDigit (m % 16)) = some (m % 16) :=
    fun m => hall ⟨m % 16, Nat.mod_lt m (by omega)⟩
  have hvalue : 16 * (16 * (16 * (16 * 0 + n / 4096 % 16) + n / 256 % 16) +
      n / 16 % 16) + n % 16 = n := by omega
  simp only [hexEscape, List.cons_append, List.nil_append, readUnits]
  simp only [hdigit, hvalue]
  rfl

theorem readUnits_escapeChar (c : Char) (rest : List Char) :
    readUnits .plain (escapeChar c ++ rest) =
      (readUnits .plain rest).map fun r => (.scalar c :: r.1, r.2) := by
  unfold escapeChar
  split
  · next p hp =>
      obtain ⟨hshort, hu, _⟩ :=
        shortForms_valid p (List.mem_of_find?_eq_some hp)
      have hc : p.1 = c := by simpa using List.find?_some hp
      subst hc
      show readUnits .escape (p.2 :: rest) = _
      rw [readUnits, if_neg hu, hshort]
  · next hnone =>
      have hne : ∀ p ∈ shortForms, c ≠ p.1 := by
        rw [List.find?_eq_none] at hnone
        intro p hp h
        exact hnone p hp (by simp [h])
      split
      · next h =>
          rw [readUnits_hexEscape (toNat_lt_of_needsHex h), codeUnit_toNat]
      · next h =>
          have hprintable : ¬ c.toNat < 32 := by
            simp only [needsHex, Bool.or_eq_true, decide_eq_true_eq] at h
            omega
          rw [List.singleton_append, readUnits,
            if_neg (hne ('"', '"') (by decide)),
            if_neg (hne ('\\', '\\') (by decide)), if_neg hprintable]

theorem readText_writeText {s : JsonText} (h : isPaired s = true)
    (rest : List Char) :
    readText (s.flatMap writeChar ++ '"' :: rest) = some (s, rest) := by
  simp only [isPaired, Bool.and_eq_true, decide_eq_true_eq,
    List.all_eq_true] at h
  obtain ⟨hpaired, hunits⟩ := h
  have hread : readUnits .plain (s.flatMap writeChar ++ '"' :: rest) =
      some (s, rest) := by
    clear hpaired
    induction s with
    | nil => rfl
    | cons c s ih =>
        obtain ⟨hc, hrest⟩ := List.forall_mem_cons.mp hunits
        rw [List.flatMap_cons, List.append_assoc]
        cases c with
        | scalar c =>
            rw [writeChar, readUnits_escapeChar, ih hrest]
            rfl
        | surrogate n =>
            have hbounds : 0xD800 ≤ n ∧ n < 0xE000 := of_decide_eq_true hc
            rw [writeChar, readUnits_hexEscape (by omega), ih hrest,
              codeUnit, if_pos hbounds]
            rfl
  rw [readText, hread, Option.map_some, hpaired]

/-! ### Numbers -/

/-- A number ends before this. -/
def Stops (rest : List Char) : Prop :=
  ∀ c ∈ rest.head?, isNumeralChar c = false

theorem readNumber_append {numeral : String}
    (h : isNumeral numeral.toList = true) {rest : List Char}
    (hrest : Stops rest) :
    readNumber (numeral.toList ++ rest) = some (.number numeral, rest) := by
  have hchars : ∀ c ∈ numeral.toList, isNumeralChar c = true := by
    rw [isNumeral, Bool.and_eq_true, List.all_eq_true] at h
    exact h.1
  have htake : rest.takeWhile isNumeralChar = [] := by
    cases rest with
    | nil => rfl
    | cons c rest => simp [hrest c rfl]
  have hdrop : rest.dropWhile isNumeralChar = rest := by
    cases rest with
    | nil => rfl
    | cons c rest => simp [hrest c rfl]
  rw [readNumber, List.takeWhile_append_of_pos hchars, htake, List.append_nil,
    if_pos h, String.ofList_toList, List.dropWhile_append_of_pos hchars, hdrop]

theorem head_numeral {cs : List Char} (h : isNumeral cs = true) :
    ∃ c rest, cs = c :: rest ∧ isNumeralChar c = true := by
  rw [isNumeral, Bool.and_eq_true, List.all_eq_true] at h
  cases cs with
  | nil => exact absurd h.2 (by decide)
  | cons c rest => exact ⟨c, rest, rfl, h.1 c List.mem_cons_self⟩

/-! ### Documents -/

theorem skipBlanks_cons {c : Char} (h : isBlank c = false) (cs : List Char) :
    skipBlanks (c :: cs) = c :: cs := by
  simp [skipBlanks, h]

theorem expect_self {c : Char} (h : isBlank c = false) (cs : List Char) :
    expect c (c :: cs) = some cs := by
  simp [expect, skipBlanks_cons h, literal]

theorem expect_ne {c d : Char} (h : isBlank d = false) (hne : c ≠ d)
    (cs : List Char) : expect c (d :: cs) = none := by
  simp [expect, skipBlanks_cons h, literal, hne]

/-- The brackets, commas and colons between documents. -/
def isClosing (c : Char) : Bool := c ∈ [']', '\x7d', ',', ':']

theorem not_closing_of_numeral {c : Char} (h : isNumeralChar c = true) :
    isBlank c = false ∧ isClosing c = false ∧ c ∉ ['"', '[', '\x7b', 'n', 't',
      'f'] := by
  have hother : ∀ d ∈ [' ', '\t', '\n', '\r', ']', '\x7d', ',', ':', '"', '[',
      '\x7b', 'n', 't', 'f'], isNumeralChar d = false := by
    simp [isNumeralChar, Char.isDigit]
  have hne : ∀ d ∈ [' ', '\t', '\n', '\r', ']', '\x7d', ',', ':', '"', '[',
      '\x7b', 'n', 't', 'f'], c ≠ d := by
    intro d hd heq
    rw [heq, hother d hd] at h
    cases h
  simp only [List.forall_mem_cons] at hne
  simp [isBlank, isClosing, hne]

theorem head_write {v : JsonValue} (h : isWritable v = true) :
    ∃ c cs, write v = c :: cs ∧ isBlank c = false ∧ isClosing c = false := by
  cases v with
  | null => exact ⟨'n', _, rfl, by decide, by decide⟩
  | bool b =>
      cases b with
      | true => exact ⟨'t', _, rfl, by decide, by decide⟩
      | false => exact ⟨'f', _, rfl, by decide, by decide⟩
  | number numeral =>
      obtain ⟨c, cs, hcs, hc⟩ := head_numeral h
      obtain ⟨hblank, hclosing, _⟩ := not_closing_of_numeral hc
      exact ⟨c, cs, hcs, hblank, hclosing⟩
  | string s => exact ⟨'"', _, rfl, by decide, by decide⟩
  | array elems =>
      cases elems with
      | nil => exact ⟨'[', _, rfl, by decide, by decide⟩
      | cons v elems => exact ⟨'[', _, rfl, by decide, by decide⟩
  | object members =>
      cases members with
      | nil => exact ⟨'\x7b', _, rfl, by decide, by decide⟩
      | cons m members => exact ⟨'\x7b', _, rfl, by decide, by decide⟩

/-- What begins with none of the three openings is no string, array or
object. -/
theorem readValue_scalar {c : Char} {cs : List Char}
    (hblank : isBlank c = false) (hopen : c ∉ ['"', '[', '\x7b']) (n : Nat) :
    readValue (n + 1) (c :: cs) = readScalar (c :: cs) := by
  simp only [List.mem_cons, List.not_mem_nil, or_false, not_or] at hopen
  rw [readValue, expect_ne hblank (Ne.symm hopen.1),
    expect_ne hblank (Ne.symm hopen.2.1), expect_ne hblank (Ne.symm hopen.2.2),
    skipBlanks_cons hblank]

theorem stops_of_closing {c : Char} (h : isClosing c = true) (cs : List Char) :
    Stops (c :: cs) := by
  intro d hd
  obtain rfl := Option.some.inj hd
  by_contra hnumeral
  have htrue := Bool.eq_true_of_not_eq_false hnumeral
  have hnot := (not_closing_of_numeral htrue).2.1
  rw [h] at hnot
  cases hnot

/-- After an element comes a comma or the bracket. -/
theorem head_writeElems (elems : List JsonValue) :
    ∃ c cs, writeElems elems = c :: cs ∧ isClosing c = true := by
  cases elems with
  | nil => exact ⟨']', _, rfl, by decide⟩
  | cons v elems => exact ⟨',', _, rfl, by decide⟩

theorem head_writeMembers (members : List (JsonText × JsonValue)) :
    ∃ c cs, writeMembers members = c :: cs ∧ isClosing c = true := by
  cases members with
  | nil => exact ⟨'\x7d', _, rfl, by decide⟩
  | cons m members => exact ⟨',', _, rfl, by decide⟩

theorem readScalar_null (rest : List Char) :
    readScalar (write .null ++ rest) = some (.null, rest) := by
  rw [readScalar, write, literal_append]

theorem readScalar_bool (b : Bool) (rest : List Char) :
    readScalar (write (.bool b) ++ rest) = some (.bool b, rest) := by
  have hnull : literal ['n', 'u', 'l', 'l'] (marshalBool b ++ rest) = none := by
    cases b with
    | true => simp [literal, marshalBool]
    | false => simp [literal, marshalBool]
  rw [readScalar, write, hnull]
  dsimp only
  rw [unmarshalBool_marshalBool]

theorem readScalar_number {numeral : String}
    (h : isNumeral numeral.toList = true) {rest : List Char}
    (hrest : Stops rest) :
    readScalar (numeral.toList ++ rest) = some (.number numeral, rest) := by
  obtain ⟨c, cs, hcs, hc⟩ := head_numeral h
  have hopen := (not_closing_of_numeral hc).2.2
  simp only [List.mem_cons, List.not_mem_nil, or_false, not_or] at hopen
  have hnull :
      literal ['n', 'u', 'l', 'l'] (numeral.toList ++ rest) = none := by
    simp [hcs, literal, Ne.symm hopen.2.2.2.1]
  have hbool : unmarshalBool (numeral.toList ++ rest) = none := by
    simp [hcs, unmarshalBool, literal, marshalBool, Ne.symm hopen.2.2.2.2.1,
      Ne.symm hopen.2.2.2.2.2]
  rw [readScalar, hnull, hbool]
  exact readNumber_append h hrest

theorem readKey_writeText {k : JsonText} (h : isPaired k = true)
    (rest : List Char) :
    readKey (writeText k ++ ':' :: rest) = some (k, rest) := by
  have htext : writeText k ++ ':' :: rest =
      '"' :: (k.flatMap writeChar ++ '"' :: ':' :: rest) := by simp [writeText]
  rw [htext, readKey, expect_self (by decide)]
  dsimp only
  rw [readText_writeText h]
  dsimp only
  rw [expect_self (by decide), Option.map_some]

theorem readValue_text {s : JsonText} (h : isPaired s = true) (n : Nat)
    (rest : List Char) :
    readValue (n + 1) (writeText s ++ rest) = some (.string s, rest) := by
  have htext : writeText s ++ rest =
      '"' :: (s.flatMap writeChar ++ '"' :: rest) := by simp [writeText]
  rw [htext, readValue, expect_self (by decide)]
  dsimp only
  rw [readText_writeText h, Option.map_some]

theorem readValue_bracket (cs : List Char) (n : Nat) :
    readValue (n + 1) ('[' :: cs) =
      match expect ']' cs with
      | some cs => some (.array [], cs)
      | none => (readElems n cs).map fun r => (.array r.1, r.2) := by
  rw [readValue, expect_ne (by decide) (by decide), expect_self (by decide)]

theorem readValue_brace (cs : List Char) (n : Nat) :
    readValue (n + 1) ('\x7b' :: cs) =
      match expect '\x7d' cs with
      | some cs => some (.object [], cs)
      | none => (readMembers n cs).map fun r => (.object r.1, r.2) := by
  rw [readValue, expect_ne (by decide) (by decide),
    expect_ne (by decide) (by decide), expect_self (by decide)]

theorem ne_of_isClosing {c d : Char} (hc : isClosing c = true)
    (hd : isClosing d = false) : c ≠ d := by
  rintro rfl
  rw [hc] at hd
  cases hd

/-- With `n` steps the reader gives back all that is no longer than `n`. -/
structure Reads (n : Nat) : Prop where
  value {v : JsonValue} (h : isWritable v = true) (hn : (write v).length ≤ n)
    {rest : List Char} (hrest : Stops rest) :
    readValue n (write v ++ rest) = some (v, rest)
  elems {v : JsonValue} {elems : List JsonValue}
    (h : areWritable (v :: elems) = true)
    (hn : (write v ++ writeElems elems).length ≤ n) (rest : List Char) :
    readElems n (write v ++ (writeElems elems ++ rest)) =
      some (v :: elems, rest)
  members {k : JsonText} {v : JsonValue}
    {members : List (JsonText × JsonValue)}
    (h : membersWritable ((k, v) :: members) = true)
    (hn : (writeText k ++ ':' :: (write v ++ writeMembers members)).length ≤ n)
    (rest : List Char) :
    readMembers n (writeText k ++
      ':' :: (write v ++ (writeMembers members ++ rest))) =
        some ((k, v) :: members, rest)

section
variable {n : Nat} {v : JsonValue} {rest : List Char}

theorem Reads.value_succ (ih : Reads n) (h : isWritable v = true)
    (hn : (write v).length ≤ n + 1) (hrest : Stops rest) :
    readValue (n + 1) (write v ++ rest) = some (v, rest) := by
  cases v with
  | null =>
      exact (readValue_scalar (by decide) (by decide) n).trans
        (readScalar_null rest)
  | bool b =>
      have hscalar := readScalar_bool b rest
      cases b with
      | true => exact (readValue_scalar (by decide) (by decide) n).trans hscalar
      | false => exact (readValue_scalar (by decide) (by decide) n).trans hscalar
  | number numeral =>
      have hscalar := readScalar_number h hrest
      obtain ⟨c, cs, hcs, hc⟩ := head_numeral h
      obtain ⟨hblank, _, hopen⟩ := not_closing_of_numeral hc
      have hopen : c ∉ ['"', '[', '\x7b'] := fun hmem => hopen (by simp_all)
      show readValue (n + 1) (numeral.toList ++ rest) = _
      rw [hcs, List.cons_append] at hscalar ⊢
      rw [readValue_scalar hblank hopen n, hscalar]
  | string s => exact readValue_text h n rest
  | array elems =>
      cases elems with
      | nil =>
          show readValue (n + 1) ('[' :: ']' :: rest) = _
          rw [readValue_bracket, expect_self (by decide)]
      | cons v elems =>
          have hall : areWritable (v :: elems) = true := h
          rw [write, List.length_cons] at hn
          have helems := ih.elems hall (by omega) rest
          rw [areWritable, Bool.and_eq_true] at hall
          obtain ⟨c, cs, hcs, hblank, hclosing⟩ := head_write hall.1
          show readValue (n + 1)
            ('[' :: (write v ++ writeElems elems ++ rest)) = _
          rw [readValue_bracket, List.append_assoc, helems, hcs,
            List.cons_append,
            expect_ne hblank (ne_of_isClosing (by decide) hclosing)]
          rfl
  | object members =>
      cases members with
      | nil =>
          show readValue (n + 1) ('\x7b' :: '\x7d' :: rest) = _
          rw [readValue_brace, expect_self (by decide)]
      | cons m members =>
          obtain ⟨k, v⟩ := m
          rw [write, List.length_cons] at hn
          have hmembers := ih.members h (by omega) rest
          have htext : write (.object ((k, v) :: members)) ++ rest =
              '\x7b' :: (writeText k ++
                ':' :: (write v ++ (writeMembers members ++ rest))) := by
            simp [write]
          rw [htext, readValue_brace, hmembers, writeText, List.cons_append,
            expect_ne (by decide) (by decide)]
          rfl

theorem Reads.elems_succ (ih : Reads n) {elems : List JsonValue}
    (h : areWritable (v :: elems) = true)
    (hn : (write v ++ writeElems elems).length ≤ n + 1) :
    readElems (n + 1) (write v ++ (writeElems elems ++ rest)) =
      some (v :: elems, rest) := by
  rw [areWritable, Bool.and_eq_true] at h
  obtain ⟨c, cs, hcs, hclosing⟩ := head_writeElems elems
  have hlength : (writeElems elems).length = cs.length + 1 := by
    rw [hcs, List.length_cons]
  rw [List.length_append] at hn
  have hstops : Stops (writeElems elems ++ rest) := by
    rw [hcs]
    exact stops_of_closing hclosing _
  rw [readElems, ih.value h.1 (by omega) hstops]
  dsimp only
  cases elems with
  | nil =>
      rw [writeElems, List.singleton_append,
        expect_ne (by decide) (by decide)]
      dsimp only
      rw [expect_self (by decide), Option.map_some]
  | cons v' elems =>
      rw [writeElems, List.length_cons] at hn
      rw [writeElems, List.cons_append, expect_self (by decide)]
      dsimp only
      rw [List.append_assoc, ih.elems h.2 (by omega) rest, Option.map_some]

theorem Reads.members_succ (ih : Reads n) {k : JsonText}
    {members : List (JsonText × JsonValue)}
    (h : membersWritable ((k, v) :: members) = true)
    (hn : (writeText k ++ ':' :: (write v ++ writeMembers members)).length ≤
      n + 1) :
    readMembers (n + 1) (writeText k ++
      ':' :: (write v ++ (writeMembers members ++ rest))) =
        some ((k, v) :: members, rest) := by
  simp only [membersWritable, Bool.and_eq_true] at h
  obtain ⟨⟨hk, hv⟩, hmembers⟩ := h
  obtain ⟨c, cs, hcs, hclosing⟩ := head_writeMembers members
  have hlength : (writeMembers members).length = cs.length + 1 := by
    rw [hcs, List.length_cons]
  simp only [List.length_append, List.length_cons] at hn
  have hstops : Stops (writeMembers members ++ rest) := by
    rw [hcs]
    exact stops_of_closing hclosing _
  rw [readMembers, readKey_writeText hk]
  dsimp only
  rw [ih.value hv (by omega) hstops]
  dsimp only
  cases members with
  | nil =>
      rw [writeMembers, List.singleton_append,
        expect_ne (by decide) (by decide)]
      dsimp only
      rw [expect_self (by decide), Option.map_some]
  | cons m members =>
      obtain ⟨k', v'⟩ := m
      rw [writeMembers] at hn
      simp only [List.length_append, List.length_cons] at hn
      have hlater := ih.members hmembers (by
        simp only [List.length_append, List.length_cons]
        omega) rest
      rw [writeMembers, List.cons_append, expect_self (by decide)]
      dsimp only
      simp only [List.append_assoc, List.cons_append]
      rw [hlater, Option.map_some]

end

theorem reads (n : Nat) : Reads n := by
  induction n with
  | zero =>
      refine ⟨fun {v} h hn => ?_, fun {v elems} h hn => ?_, fun h hn => ?_⟩
      · obtain ⟨c, cs, hcs, _⟩ := head_write h
        rw [hcs] at hn
        cases hn
      · obtain ⟨c, cs, hcs, _⟩ := head_writeElems elems
        rw [hcs, List.length_append, List.length_cons] at hn
        omega
      · rw [List.length_append, List.length_cons] at hn
        omega
  | succ n ih =>
      exact ⟨fun h hn _ hrest => ih.value_succ h hn hrest,
        fun h hn _ => ih.elems_succ h hn, fun h hn _ => ih.members_succ h hn⟩

/-- A document that was written down is the first of its text. -/
theorem readFirst_write {v : JsonValue} (h : isWritable v = true)
    {rest : List Char} (hrest : Stops rest) :
    readFirst (write v ++ rest) = some (v, rest) := by
  refine (reads _).value h ?_ hrest
  rw [List.length_append]
  omega

/-- Reading undoes writing, with blanks at the end. -/
theorem read_write {v : JsonValue} (h : isWritable v = true)
    {blanks : List Char} (hblanks : ∀ c ∈ blanks, isBlank c = true) :
    read (write v ++ blanks) = some v := by
  have hstops : Stops blanks := by
    intro c hc
    by_contra hnumeral
    have hblank := (not_closing_of_numeral
      (Bool.eq_true_of_not_eq_false hnumeral)).1
    rw [hblanks c (List.mem_of_head? hc)] at hblank
    cases hblank
  have hskip : skipBlanks blanks = [] := List.dropWhile_eq_nil_iff.mpr hblanks
  rw [read, readFirst_write h hstops]
  dsimp only
  rw [if_pos hskip]

end Vexil.Lib.Json
