import Mathlib.Data.String.Basic

/-!
# UTF-8 as a body is decoded

Decoding does not fail. Bytes that are no UTF-8 give U+FFFD, one for the longest
piece that could still have become a character, and a byte order mark in front
is taken for no part of the text. So text comes back from its bytes, and bytes
come back from their text only if they are the encoding of one that does not
begin with a mark (`encode_decode_iff`).
-/

namespace Vexil.Lib.Utf8

def replacement : Char := Char.ofNat 0xFFFD

def byteOrderMark : Char := Char.ofNat 0xFEFF

/-- A character that has begun: its number so far, how many bytes it still
needs, and the bounds of the next one. -/
structure Pending where
  point : Nat
  needed : Nat
  lower : Nat := 0x80
  upper : Nat := 0xBF
  deriving DecidableEq

/-- What a byte makes of the state: characters, and one that has begun. -/
structure Step where
  out : List Char
  pending : Option Pending
  deriving DecidableEq

/-- After the first byte of two. -/
def twoBytes (b : Nat) : Pending where
  point := b - 0xC0
  needed := 1

/-- After the first byte of three. -/
def threeBytes (b : Nat) : Pending where
  point := b - 0xE0
  needed := 2
  lower := if b = 0xE0 then 0xA0 else 0x80
  upper := if b = 0xED then 0x9F else 0xBF

/-- After the first byte of four. -/
def fourBytes (b : Nat) : Pending where
  point := b - 0xF0
  needed := 3
  lower := if b = 0xF0 then 0x90 else 0x80
  upper := if b = 0xF4 then 0x8F else 0xBF

/-- A byte where a character begins. -/
def lead (b : Nat) : Step :=
  if b ≤ 0x7F then ⟨[Char.ofNat b], none⟩
  else if 0xC2 ≤ b ∧ b ≤ 0xDF then ⟨[], some (twoBytes b)⟩
  else if 0xE0 ≤ b ∧ b ≤ 0xEF then ⟨[], some (threeBytes b)⟩
  else if 0xF0 ≤ b ∧ b ≤ 0xF4 then ⟨[], some (fourBytes b)⟩
  else ⟨[replacement], none⟩

/-- A byte that goes on with a character. -/
def Pending.next (p : Pending) (b : Nat) : Step :=
  let point := p.point * 64 + (b - 0x80)
  if p.needed = 1 then ⟨[Char.ofNat point], none⟩
  else ⟨[], some { point := point, needed := p.needed - 1 }⟩

/-- One byte; where it does not go on with the character that has begun, another
one begins with it. -/
def step : Option Pending → Nat → Step
  | none, b => lead b
  | some p, b =>
      if p.lower ≤ b ∧ b ≤ p.upper then p.next b
      else ⟨replacement :: (lead b).out, (lead b).pending⟩

def decodeFrom : Option Pending → List UInt8 → List Char
  | none, [] => []
  | some _, [] => [replacement]
  | p, b :: rest =>
      (step p b.toNat).out ++ decodeFrom (step p b.toNat).pending rest

def dropMark : List UInt8 → List UInt8
  | 0xEF :: 0xBB :: 0xBF :: rest => rest
  | bytes => bytes

/-- The text of a body. -/
def decode (bytes : List UInt8) : String :=
  String.ofList (decodeFrom none (dropMark bytes))

def encode (s : String) : List UInt8 :=
  s.toList.flatMap String.utf8EncodeChar

/-! ## Text comes back -/

theorem decodeFrom_cons (p : Option Pending) (b : Nat) (hb : b < 256)
    (rest : List UInt8) :
    decodeFrom p (UInt8.ofNat b :: rest) =
      (step p b).out ++ decodeFrom (step p b).pending rest := by
  have htoNat : (UInt8.ofNat b).toNat = b := UInt8.toNat_ofNat_of_lt' hb
  cases p with
  | none => rw [decodeFrom, htoNat]
  | some p => rw [decodeFrom, htoNat]

theorem lead_two {b : Nat} (h : 0xC2 ≤ b ∧ b ≤ 0xDF) :
    lead b = ⟨[], some (twoBytes b)⟩ := by
  rw [lead, if_neg (by omega), if_pos h]

theorem lead_three {b : Nat} (h : 0xE0 ≤ b ∧ b ≤ 0xEF) :
    lead b = ⟨[], some (threeBytes b)⟩ := by
  rw [lead, if_neg (by omega), if_neg (by omega), if_pos h]

theorem lead_four {b : Nat} (h : 0xF0 ≤ b ∧ b ≤ 0xF4) :
    lead b = ⟨[], some (fourBytes b)⟩ := by
  rw [lead, if_neg (by omega), if_neg (by omega), if_neg (by omega), if_pos h]

/-- A byte with which a longer character begins. -/
theorem decodeFrom_lead {b : Nat} {p : Pending} (hb : b < 256)
    (hlead : lead b = ⟨[], some p⟩) (rest : List UInt8) :
    decodeFrom none (UInt8.ofNat b :: rest) = decodeFrom (some p) rest := by
  rw [decodeFrom_cons none b hb, step, hlead]
  rfl

/-- A byte that may stand anywhere but in front. -/
def IsTail (b : Nat) : Prop := 0x80 ≤ b ∧ b ≤ 0xBF

theorem IsTail.lt {b : Nat} (h : IsTail b) : b < 256 :=
  Nat.lt_of_le_of_lt h.2 (by decide)

/-- A byte in the bounds that does not end the character. -/
theorem decodeFrom_more {p : Pending} {b : Nat} (hb : IsTail b)
    (hbounds : p.lower ≤ b ∧ b ≤ p.upper) (hmore : p.needed ≠ 1)
    (rest : List UInt8) :
    decodeFrom (some p) (UInt8.ofNat b :: rest) =
      decodeFrom (some
        { point := p.point * 64 + (b - 0x80), needed := p.needed - 1 })
        rest := by
  rw [decodeFrom_cons _ b hb.lt, step, if_pos hbounds, Pending.next,
    if_neg hmore]
  rfl

/-- The third byte of four. -/
theorem decodeFrom_third {b : Nat} (point : Nat) (hb : IsTail b)
    (rest : List UInt8) :
    decodeFrom (some { point := point, needed := 2 })
        (UInt8.ofNat b :: rest) =
      decodeFrom (some { point := point * 64 + (b - 0x80), needed := 1 })
        rest :=
  decodeFrom_more (p := { point := point, needed := 2 }) hb hb
    (Nat.succ_ne_self 1) rest

/-- A byte that ends the character. -/
theorem decodeFrom_last {b : Nat} (point : Nat) (hb : IsTail b)
    (rest : List UInt8) :
    decodeFrom (some { point := point, needed := 1 })
        (UInt8.ofNat b :: rest) =
      Char.ofNat (point * 64 + (b - 0x80)) :: decodeFrom none rest := by
  rw [decodeFrom_cons _ b hb.lt, step]
  dsimp only
  rw [if_pos ⟨hb.1, hb.2⟩, Pending.next, if_pos rfl]
  rfl

/-! Whole characters, by how many bytes they have -/

theorem threeBytes_bounds {a b : Nat} (hb : IsTail b)
    (hlow : a = 0xE0 → 0xA0 ≤ b) (hhigh : a = 0xED → b ≤ 0x9F) :
    (threeBytes a).lower ≤ b ∧ b ≤ (threeBytes a).upper := by
  have hlower : (threeBytes a).lower = if a = 0xE0 then 0xA0 else 0x80 := rfl
  have hupper : (threeBytes a).upper = if a = 0xED then 0x9F else 0xBF := rfl
  rw [hlower, hupper]
  refine ⟨?_, ?_⟩
  · split
    · next h => exact hlow h
    · exact hb.1
  · split
    · next h => exact hhigh h
    · exact hb.2

theorem fourBytes_bounds {a b : Nat} (hb : IsTail b)
    (hlow : a = 0xF0 → 0x90 ≤ b) (hhigh : a = 0xF4 → b ≤ 0x8F) :
    (fourBytes a).lower ≤ b ∧ b ≤ (fourBytes a).upper := by
  have hlower : (fourBytes a).lower = if a = 0xF0 then 0x90 else 0x80 := rfl
  have hupper : (fourBytes a).upper = if a = 0xF4 then 0x8F else 0xBF := rfl
  rw [hlower, hupper]
  refine ⟨?_, ?_⟩
  · split
    · next h => exact hlow h
    · exact hb.1
  · split
    · next h => exact hhigh h
    · exact hb.2

section
variable {a b c d : Nat} (rest : List UInt8)

theorem decodeFrom_two (hb : IsTail b) (ha : 0xC2 ≤ a ∧ a ≤ 0xDF) :
    decodeFrom none (UInt8.ofNat a :: UInt8.ofNat b :: rest) =
      Char.ofNat ((a - 0xC0) * 64 + (b - 0x80)) :: decodeFrom none rest := by
  rw [decodeFrom_lead (by omega) (lead_two ha)]
  exact decodeFrom_last _ hb rest

theorem decodeFrom_three (hb : IsTail b) (hc : IsTail c)
    (ha : 0xE0 ≤ a ∧ a ≤ 0xEF)
    (hlow : a = 0xE0 → 0xA0 ≤ b) (hhigh : a = 0xED → b ≤ 0x9F) :
    decodeFrom none
        (UInt8.ofNat a :: UInt8.ofNat b :: UInt8.ofNat c :: rest) =
      Char.ofNat (((a - 0xE0) * 64 + (b - 0x80)) * 64 + (c - 0x80)) ::
        decodeFrom none rest := by
  have hneeded : (threeBytes a).needed = 2 := rfl
  rw [decodeFrom_lead (by omega) (lead_three ha), decodeFrom_more hb
    (threeBytes_bounds hb hlow hhigh) (by rw [hneeded]; decide)]
  exact decodeFrom_last _ hc rest

theorem decodeFrom_four (hb : IsTail b) (hc : IsTail c) (hd : IsTail d)
    (ha : 0xF0 ≤ a ∧ a ≤ 0xF4) (hlow : a = 0xF0 → 0x90 ≤ b)
    (hhigh : a = 0xF4 → b ≤ 0x8F) :
    decodeFrom none (UInt8.ofNat a :: UInt8.ofNat b :: UInt8.ofNat c ::
        UInt8.ofNat d :: rest) =
      Char.ofNat ((((a - 0xF0) * 64 + (b - 0x80)) * 64 + (c - 0x80)) * 64 +
        (d - 0x80)) :: decodeFrom none rest := by
  have hneeded : (fourBytes a).needed = 3 := rfl
  rw [decodeFrom_lead (by omega) (lead_four ha), decodeFrom_more hb
    (fourBytes_bounds hb hlow hhigh) (by rw [hneeded]; decide)]
  exact (decodeFrom_third _ hc _).trans (decodeFrom_last _ hd rest)

end

/-- The last six bits of a number, as they are encoded. -/
theorem isTail_of_mod (n : Nat) : IsTail (n % 0x40 + 0x80) := by
  rw [IsTail]
  omega

theorem decodeFrom_encodeChar (c : Char) (rest : List UInt8) :
    decodeFrom none (String.utf8EncodeChar c ++ rest) =
      c :: decodeFrom none rest := by
  obtain ⟨v, hv⟩ : ∃ v, v = c.val.toNat := ⟨_, rfl⟩
  have hvalid : v < 0xD800 ∨ (0xDFFF < v ∧ v < 0x110000) := by
    rw [hv]
    exact c.valid
  have hchar : Char.ofNat v = c := by
    rw [hv]
    exact Char.ofNat_toNat c
  rw [String.utf8EncodeChar]
  simp only [← hv]
  split
  · next h1 =>
      rw [List.singleton_append, decodeFrom_cons none v (by omega), step, lead,
        if_pos h1, hchar]
      rfl
  have htail := isTail_of_mod
  split
  · next h1 h2 =>
      obtain ⟨a, ha⟩ : ∃ a, a = v / 64 % 0x20 + 0xc0 := ⟨_, rfl⟩
      have hpoint : (a - 0xC0) * 64 + (v % 0x40 + 0x80 - 0x80) = v := by omega
      have htwo := decodeFrom_two rest (htail v) (a := a) (by omega)
      rw [hpoint, hchar] at htwo
      rw [← ha]
      exact htwo
  split
  · next h1 h2 h3 =>
      obtain ⟨a, ha⟩ : ∃ a, a = v / 4096 % 0x10 + 0xe0 := ⟨_, rfl⟩
      have hpoint : ((a - 0xE0) * 64 + (v / 64 % 0x40 + 0x80 - 0x80)) * 64 +
          (v % 0x40 + 0x80 - 0x80) = v := by omega
      have hthree := decodeFrom_three rest (htail (v / 64)) (htail v) (a := a)
        (by omega) (by omega) (by omega)
      rw [hpoint, hchar] at hthree
      rw [← ha]
      exact hthree
  · next h1 h2 h3 =>
      obtain ⟨a, ha⟩ : ∃ a, a = v / 262144 % 0x08 + 0xf0 := ⟨_, rfl⟩
      have hpoint : (((a - 0xF0) * 64 + (v / 4096 % 0x40 + 0x80 - 0x80)) * 64 +
          (v / 64 % 0x40 + 0x80 - 0x80)) * 64 + (v % 0x40 + 0x80 - 0x80) =
            v := by omega
      have hfour := decodeFrom_four rest (htail (v / 4096)) (htail (v / 64))
        (htail v) (a := a) (by omega) (by omega) (by omega)
      rw [hpoint, hchar] at hfour
      rw [← ha]
      exact hfour

theorem decodeFrom_encode (cs : List Char) :
    decodeFrom none (cs.flatMap String.utf8EncodeChar) = cs := by
  induction cs with
  | nil => rfl
  | cons c cs ih => rw [List.flatMap_cons, decodeFrom_encodeChar, ih]

theorem encode_inj {s s' : String} : encode s = encode s' ↔ s = s' := by
  refine ⟨fun h => ?_, fun h => congrArg encode h⟩
  have hchars := congrArg (decodeFrom none) h
  rw [encode, encode, decodeFrom_encode, decodeFrom_encode] at hchars
  exact String.toList_inj.mp hchars

/-- A byte below 128 is a character, and no part of another. -/
theorem encodeChar_ascii {c : Char} (h : c.toNat < 0x80) :
    String.utf8EncodeChar c = [UInt8.ofNat c.toNat] := by
  have hle : c.val.toNat ≤ 0x7F := by
    have : c.val.toNat < 0x80 := h
    omega
  rw [String.utf8EncodeChar]
  simp only [if_pos hle]
  rfl

theorem le_of_mem_encodeChar {c : Char} (h : 0x80 ≤ c.toNat) {b : UInt8}
    (hb : b ∈ String.utf8EncodeChar c) : 0x80 ≤ b.toNat := by
  obtain ⟨v, hv⟩ : ∃ v, v = c.val.toNat := ⟨_, rfl⟩
  have hlow : ¬ v ≤ 0x7F := by
    have : 0x80 ≤ c.val.toNat := h
    omega
  rw [String.utf8EncodeChar] at hb
  simp only [← hv, if_neg hlow] at hb
  split at hb
  · simp only [List.mem_cons, List.not_mem_nil, or_false] at hb
    rcases hb with rfl | rfl <;> rw [UInt8.toNat_ofNat'] <;> omega
  · split at hb
    · simp only [List.mem_cons, List.not_mem_nil, or_false] at hb
      rcases hb with rfl | rfl | rfl <;> rw [UInt8.toNat_ofNat'] <;> omega
    · simp only [List.mem_cons, List.not_mem_nil, or_false] at hb
      rcases hb with rfl | rfl | rfl | rfl <;>
        rw [UInt8.toNat_ofNat'] <;> omega

theorem mem_encode_ascii {c : Char} (h : c.toNat < 0x80) {s : String} :
    UInt8.ofNat c.toNat ∈ encode s ↔ c ∈ s.toList := by
  rw [encode, List.mem_flatMap]
  constructor
  · intro hmem
    obtain ⟨d, hd, hb⟩ := hmem
    have hsmall : ∀ {n}, n < 0x80 → (UInt8.ofNat n).toNat = n := fun hn =>
      UInt8.toNat_ofNat_of_lt' (hn.trans (by decide))
    by_cases hascii : d.toNat < 0x80
    · rw [encodeChar_ascii hascii, List.mem_singleton] at hb
      have hnat := congrArg UInt8.toNat hb
      rw [hsmall h, hsmall hascii] at hnat
      rwa [Char.toNat_inj.mp hnat]
    · have hlarge := le_of_mem_encodeChar (Nat.le_of_not_lt hascii) hb
      rw [hsmall h] at hlarge
      omega
  · intro hmem
    exact ⟨c, hmem, by rw [encodeChar_ascii h]; exact List.mem_singleton_self _⟩

theorem decodeFrom_mark (rest : List UInt8) :
    decodeFrom none (0xEF :: 0xBB :: 0xBF :: rest) =
      byteOrderMark :: decodeFrom none rest :=
  decodeFrom_encodeChar byteOrderMark rest

/-! ## Bytes that come back -/

/-- Bytes that are the encoding of a text, without a mark in front of it. -/
def IsText (bytes : List UInt8) : Prop :=
  ∃ s : String, bytes = encode s ∧ s.toList.head? ≠ some byteOrderMark

theorem dropMark_cases (bytes : List UInt8) :
    (∃ rest, bytes = 0xEF :: 0xBB :: 0xBF :: rest ∧ dropMark bytes = rest) ∨
      dropMark bytes = bytes := by
  unfold dropMark
  split
  · next rest => exact .inl ⟨rest, rfl, rfl⟩
  · exact .inr rfl

theorem decode_encode {s : String}
    (h : s.toList.head? ≠ some byteOrderMark) : decode (encode s) = s := by
  have hback : decodeFrom none (encode s) = s.toList := decodeFrom_encode _
  rw [decode]
  obtain ⟨rest, hmark, _⟩ | hsame := dropMark_cases (encode s)
  · rw [hmark, decodeFrom_mark] at hback
    rw [← hback] at h
    exact absurd rfl h
  · rw [hsame, hback, String.ofList_toList]

theorem encode_decode_iff {bytes : List UInt8} :
    encode (decode bytes) = bytes ↔ IsText bytes := by
  refine ⟨fun h => ?_, fun htext => ?_⟩
  · refine ⟨decode bytes, h.symm, fun hmark => ?_⟩
    have hchars : (decode bytes).toList =
        decodeFrom none (dropMark bytes) := by
      rw [decode, String.toList_ofList]
    obtain ⟨tail, htail⟩ := List.head?_eq_some_iff.mp hmark
    -- The mark that the text begins with was a second one.
    have hbytes : bytes =
        0xEF :: 0xBB :: 0xBF :: tail.flatMap String.utf8EncodeChar := by
      rw [← h, encode, htail]
      rfl
    have hdrop : dropMark bytes = tail.flatMap String.utf8EncodeChar := by
      rw [hbytes]
      rfl
    rw [hdrop, decodeFrom_encode, htail] at hchars
    exact absurd hchars (List.cons_ne_self byteOrderMark tail)
  · obtain ⟨s, rfl, hmark⟩ := htext
    rw [decode_encode hmark]

end Vexil.Lib.Utf8
