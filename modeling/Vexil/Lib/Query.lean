import Vexil.Lib.Go
import Vexil.Lib.Utf8

/-!
# Query strings

The query of a URL as three parties have it. `URLSearchParams` writes one from
pairs of names and values; the URL parser encodes what a URL cannot hold and
leaves the rest alone; `url.ParseQuery` of Go reads the pairs back. All three
work on bytes.

The parser of URLs cannot be noticed behind the reader of queries
(`parseQuery_urlQuery`): what it encodes is decoded to what it was, and what it
leaves alone divides the query where it did before. So however often a URL is
parsed and printed on its way, the server reads what was written, and a query
can be reasoned about as it was written. Pairs that were written by
`URLSearchParams` are read back as they are, whatever is in them; a value that
was put behind its name as it is comes back if and only if it stands for itself.
-/

namespace Vexil.Lib

/-! ## Escapes -/

def unhexByte (b : UInt8) : Option Nat :=
  let n := b.toNat
  if 0x30 ≤ n ∧ n ≤ 0x39 then some (n - 0x30)
  else if 0x61 ≤ n ∧ n ≤ 0x66 then some (n - 0x61 + 10)
  else if 0x41 ≤ n ∧ n ≤ 0x46 then some (n - 0x41 + 10)
  else none

/-- A digit as it is written. -/
def hexByte (n : Nat) : UInt8 := .ofNat (if n < 10 then 0x30 + n else 0x37 + n)

def percentByte (b : UInt8) : List UInt8 :=
  [0x25, hexByte (b.toNat / 16), hexByte (b.toNat % 16)]

/-- `url.QueryUnescape`; `none` when an escape is malformed. -/
def queryUnescape : List UInt8 → Option (List UInt8)
  | [] => some []
  | b :: bs =>
      if b = 0x25 then
        match bs with
        | x :: y :: bs' =>
            match unhexByte x, unhexByte y with
            | some m, some n =>
                (queryUnescape bs').map (UInt8.ofNat (16 * m + n) :: ·)
            | _, _ => none
        | _ => none
      else if b = 0x2B then (queryUnescape bs).map (0x20 :: ·)
      else (queryUnescape bs).map (b :: ·)

/-! ## The three parties -/

/-- The bytes that `URLSearchParams` leaves as they are. -/
def isFormSafe (b : UInt8) : Bool :=
  let n := b.toNat
  (0x30 ≤ n ∧ n ≤ 0x39) ∨ (0x41 ≤ n ∧ n ≤ 0x5A) ∨ (0x61 ≤ n ∧ n ≤ 0x7A) ∨
    n = 0x2A ∨ n = 0x2D ∨ n = 0x2E ∨ n = 0x5F

def formByte (b : UInt8) : List UInt8 :=
  if b = 0x20 then [0x2B] else if isFormSafe b then [b] else percentByte b

def formEncode (bs : List UInt8) : List UInt8 := bs.flatMap formByte

/-- `URLSearchParams.toString`. -/
def formString (pairs : List (List UInt8 × List UInt8)) : List UInt8 :=
  [0x26].intercalate
    (pairs.map fun p => formEncode p.1 ++ 0x3D :: formEncode p.2)

/-- The bytes that the URL parser encodes in a query: controls, the space, what
is not ASCII, and the quotes, the number sign and the angle brackets. -/
def isQueryEncoded (b : UInt8) : Bool :=
  let n := b.toNat
  n ≤ 0x20 ∨ 0x7F ≤ n ∨ n = 0x22 ∨ n = 0x23 ∨ n = 0x27 ∨ n = 0x3C ∨ n = 0x3E

def queryByte (b : UInt8) : List UInt8 :=
  if isQueryEncoded b then percentByte b else [b]

/-- The query of a parsed URL. -/
def urlQuery (bs : List UInt8) : List UInt8 := bs.flatMap queryByte

/-- `strings.Cut` at a byte. -/
def cutByte (c : UInt8) : List UInt8 → List UInt8 × List UInt8
  | [] => ([], [])
  | b :: bs =>
      if b = c then ([], bs) else (b :: (cutByte c bs).1, (cutByte c bs).2)

/-- One round of `url.parseQuery`; what is malformed is left out. -/
def parsePair (seg : List UInt8) : Option (List UInt8 × List UInt8) :=
  if 0x3B ∈ seg ∨ seg = [] then none
  else
    match queryUnescape (cutByte 0x3D seg).1,
        queryUnescape (cutByte 0x3D seg).2 with
    | some key, some value => some (key, value)
    | _, _ => none

def parseQuery (query : List UInt8) : List (List UInt8 × List UInt8) :=
  (query.splitOn 0x26).filterMap parsePair

/-- `Values.Get`: the first value, or nothing. -/
def queryGet (query key : List UInt8) : List UInt8 :=
  ((parseQuery query).lookup key).getD []

/-! ## Escapes come back -/

theorem unhexByte_hexByte : ∀ n < 16, unhexByte (hexByte n) = some n := by
  decide

theorem isFormSafe_hexByte : ∀ n < 16, isFormSafe (hexByte n) = true := by
  decide

/-- A digit is written by both sides as it is. -/
theorem isFormSafe_of_unhexByte {b : UInt8} {n : Nat}
    (h : unhexByte b = some n) : isFormSafe b = true := by
  unfold isFormSafe
  unfold unhexByte at h
  rw [decide_eq_true_iff]
  dsimp only at h ⊢
  split at h
  · omega
  · split at h
    · omega
    · split at h
      · omega
      · cases h

theorem queryUnescape_percentByte (b : UInt8) (rest : List UInt8) :
    queryUnescape (percentByte b ++ rest) =
      (queryUnescape rest).map (b :: ·) := by
  have hb : b.toNat < 256 := b.toNat_lt
  have hback : UInt8.ofNat (16 * (b.toNat / 16) + b.toNat % 16) = b := by
    rw [Nat.div_add_mod, UInt8.ofNat_toNat]
  show queryUnescape (0x25 :: hexByte _ :: hexByte _ :: rest) = _
  rw [queryUnescape, if_pos rfl]
  simp only [unhexByte_hexByte (b.toNat / 16) (by omega),
    unhexByte_hexByte (b.toNat % 16) (by omega), hback]

theorem queryUnescape_cons {b : UInt8} (h : b ≠ 0x25) (h' : b ≠ 0x2B)
    (rest : List UInt8) :
    queryUnescape (b :: rest) = (queryUnescape rest).map (b :: ·) := by
  rw [queryUnescape.eq_def]
  simp only [if_neg h, if_neg h']

theorem queryUnescape_plus (rest : List UInt8) :
    queryUnescape (0x2B :: rest) = (queryUnescape rest).map (0x20 :: ·) := by
  rw [queryUnescape.eq_def]
  exact if_neg (by decide)

/-- A percent sign that no two digits follow. -/
theorem queryUnescape_malformed {l : List UInt8}
    (h : ∀ x y rest, l = x :: y :: rest →
      unhexByte x = none ∨ unhexByte y = none) :
    queryUnescape (0x25 :: l) = none := by
  rw [queryUnescape.eq_def]
  simp only [if_true]
  split
  · next x y rest =>
      rcases h x y rest rfl with hx | hy
      · rw [hx]
      · rw [hy]
        split
        · next heq => cases heq
        · rfl
  · rfl

/-! ## The parser of URLs cannot be noticed -/

theorem queryByte_of_formSafe {b : UInt8} (h : isFormSafe b = true) :
    queryByte b = [b] := by
  have hnot : ¬ isQueryEncoded b = true := by
    unfold isFormSafe at h
    unfold isQueryEncoded
    rw [decide_eq_true_iff] at h ⊢
    omega
  exact if_neg hnot

/-- What an encoded byte begins with is no digit, unless it is the byte. -/
theorem queryByte_cases (b : UInt8) : queryByte b = [b] ∨
    ∃ tail, queryByte b = 0x25 :: tail ∧ unhexByte b = none := by
  cases hx : unhexByte b with
  | some n =>
      exact .inl (queryByte_of_formSafe (isFormSafe_of_unhexByte hx))
  | none =>
      unfold queryByte
      split
      · exact .inr ⟨_, rfl, rfl⟩
      · exact .inl rfl

/-- No escape is completed by what the parser encodes. -/
theorem unhex_of_urlQuery {l : List UInt8}
    (h : ∀ x y rest, l = x :: y :: rest →
      unhexByte x = none ∨ unhexByte y = none) :
    ∀ x y rest, urlQuery l = x :: y :: rest →
      unhexByte x = none ∨ unhexByte y = none := by
  have hpercent : unhexByte 0x25 = none := by decide
  intro x y rest heq
  cases l with
  | nil => cases heq
  | cons a l =>
      rw [urlQuery, List.flatMap_cons] at heq
      obtain ha | ⟨tail, ha, _⟩ := queryByte_cases a
      · rw [ha, List.singleton_append, List.cons.injEq] at heq
        obtain ⟨rfl, heq⟩ := heq
        cases l with
        | nil => cases heq
        | cons b l =>
            have hab := h a b l rfl
            rw [List.flatMap_cons] at heq
            obtain hb | ⟨tail, hb, hnone⟩ := queryByte_cases b
            · rw [hb, List.singleton_append, List.cons.injEq] at heq
              rw [← heq.1]
              exact hab
            · rw [hb, List.cons_append, List.cons.injEq] at heq
              rw [← heq.1]
              exact .inr hpercent
      · rw [ha, List.cons_append, List.cons.injEq] at heq
        rw [← heq.1]
        exact .inl hpercent

theorem queryUnescape_queryByte {b : UInt8} (h : b ≠ 0x25) (h' : b ≠ 0x2B)
    (rest : List UInt8) : queryUnescape (queryByte b ++ rest) =
      (queryUnescape rest).map (b :: ·) := by
  unfold queryByte
  split
  · exact queryUnescape_percentByte b rest
  · exact queryUnescape_cons h h' rest

theorem queryUnescape_urlQuery (l : List UInt8) :
    queryUnescape (urlQuery l) = queryUnescape l := by
  have hpercent : queryByte 0x25 = [0x25] := by decide
  have hplus : queryByte 0x2B = [0x2B] := by decide
  fun_induction queryUnescape l with
  | case1 => rfl
  | case2 x y rest m n hn hm ih =>
      have hx := queryByte_of_formSafe (isFormSafe_of_unhexByte hm)
      have hy := queryByte_of_formSafe (isFormSafe_of_unhexByte hn)
      rw [urlQuery, List.flatMap_cons, List.flatMap_cons, List.flatMap_cons,
        hpercent, hx, hy]
      show queryUnescape (0x25 :: x :: y :: urlQuery rest) = _
      rw [queryUnescape, if_pos rfl]
      simp only [hm, hn, ih]
  | case3 x y rest hno =>
      rw [urlQuery, List.flatMap_cons, hpercent]
      refine queryUnescape_malformed
        (unhex_of_urlQuery fun x' y' rest' heq => ?_)
      cases heq
      cases hx : unhexByte x with
      | none => exact .inl rfl
      | some m =>
          cases hy : unhexByte y with
          | none => exact .inr rfl
          | some n => exact (hno m n hx hy).elim
  | case4 l hshort =>
      rw [urlQuery, List.flatMap_cons, hpercent]
      exact queryUnescape_malformed (unhex_of_urlQuery fun x y rest heq =>
        (hshort x y rest heq).elim)
  | case5 bs hne ih =>
      rw [urlQuery, List.flatMap_cons, hplus, List.singleton_append,
        queryUnescape_plus]
      exact congrArg _ ih
  | case6 b bs hne hne' ih =>
      rw [urlQuery, List.flatMap_cons, queryUnescape_queryByte hne hne']
      exact congrArg _ ih

/-! Splitting and cutting at a byte that the parser leaves alone commute with
it. -/

section
variable {f : UInt8 → List UInt8} {c : UInt8}

theorem splitOn_append_of_not_mem {xs : List UInt8} (h : c ∉ xs)
    (ys : List UInt8) : (xs ++ ys).splitOn c =
      (ys.splitOn c).modifyHead (xs ++ ·) := by
  induction xs with
  | nil =>
      cases hys : ys.splitOn c with
      | nil => exact absurd hys (List.splitOn_ne_nil c ys)
      | cons y ys => simp [hys]
  | cons x xs ih =>
      rw [List.mem_cons, not_or] at h
      rw [List.cons_append, List.splitOn_cons_eq_if_modifyHead,
        if_neg (by simpa using Ne.symm h.1), ih h.2]
      cases ys.splitOn c with
      | nil => rfl
      | cons y ys => rfl

theorem splitOn_flatMap (hc : f c = [c]) (hf : ∀ b, b ≠ c → c ∉ f b)
    (l : List UInt8) : (l.flatMap f).splitOn c =
      (l.splitOn c).map (List.flatMap f) := by
  induction l with
  | nil => rfl
  | cons b l ih =>
      rw [List.flatMap_cons]
      by_cases hb : b = c
      · subst hb
        rw [hc, List.singleton_append, List.splitOn_cons_eq_if_modifyHead,
          List.splitOn_cons_eq_if_modifyHead]
        simp [ih]
      · rw [splitOn_append_of_not_mem (hf b hb), ih,
          List.splitOn_cons_eq_if_modifyHead, if_neg (by simpa using hb)]
        cases l.splitOn c with
        | nil => rfl
        | cons y ys => rfl

theorem cutByte_append {xs : List UInt8} (h : c ∉ xs) (ys : List UInt8) :
    cutByte c (xs ++ ys) = (xs ++ (cutByte c ys).1, (cutByte c ys).2) := by
  induction xs with
  | nil => rfl
  | cons x xs ih =>
      rw [List.mem_cons, not_or] at h
      rw [List.cons_append, cutByte, if_neg (Ne.symm h.1), ih h.2]
      rfl

theorem cutByte_flatMap (hc : f c = [c]) (hf : ∀ b, b ≠ c → c ∉ f b)
    (l : List UInt8) : cutByte c (l.flatMap f) =
      ((cutByte c l).1.flatMap f, (cutByte c l).2.flatMap f) := by
  induction l with
  | nil => rfl
  | cons b l ih =>
      rw [List.flatMap_cons, cutByte]
      by_cases hb : b = c
      · subst hb
        rw [hc, List.singleton_append, cutByte, if_pos rfl, if_pos rfl]
        rfl
      · rw [cutByte_append (hf b hb), ih, if_neg hb]
        rfl

end

/-- The bytes that divide a query. -/
def IsDivider (c : UInt8) : Prop := c = 0x26 ∨ c = 0x3B ∨ c = 0x3D

theorem mem_percentByte {b c : UInt8} (h : c ∈ percentByte b) :
    c = 0x25 ∨ isFormSafe c = true := by
  have hb : b.toNat < 256 := b.toNat_lt
  simp only [percentByte, List.mem_cons, List.not_mem_nil, or_false] at h
  rcases h with rfl | rfl | rfl
  · exact .inl rfl
  · exact .inr (isFormSafe_hexByte _ (by omega))
  · exact .inr (isFormSafe_hexByte _ (by omega))

theorem IsDivider.not_safe {c : UInt8} (h : IsDivider c) :
    isFormSafe c = false ∧ c ≠ 0x25 := by
  rcases h with rfl | rfl | rfl <;> decide

theorem IsDivider.not_mem_percentByte {c : UInt8} (h : IsDivider c)
    (b : UInt8) : c ∉ percentByte b := by
  intro hmem
  obtain ⟨hspecial, hne⟩ := h.not_safe
  rcases mem_percentByte hmem with heq | hsafe
  · exact hne heq
  · rw [hspecial] at hsafe
    cases hsafe

theorem IsDivider.kept {c : UInt8} (h : IsDivider c) :
    queryByte c = [c] := by
  rcases h with rfl | rfl | rfl <;> decide

theorem IsDivider.not_mem_queryByte {c : UInt8} (h : IsDivider c) (b : UInt8)
    (hb : b ≠ c) : c ∉ queryByte b := by
  unfold queryByte
  split
  · exact h.not_mem_percentByte b
  · simpa using Ne.symm hb

theorem mem_urlQuery {c : UInt8} (h : IsDivider c) {l : List UInt8} :
    c ∈ urlQuery l ↔ c ∈ l := by
  rw [urlQuery, List.mem_flatMap]
  constructor
  · intro hmem
    obtain ⟨b, hb, hc⟩ := hmem
    by_cases heq : b = c
    · exact heq ▸ hb
    · exact absurd hc (h.not_mem_queryByte b heq)
  · intro hmem
    exact ⟨c, hmem, by rw [h.kept]; exact List.mem_singleton_self c⟩

theorem urlQuery_eq_nil {l : List UInt8} : urlQuery l = [] ↔ l = [] := by
  cases l with
  | nil => exact iff_of_true rfl rfl
  | cons b l =>
      rw [urlQuery, List.flatMap_cons]
      obtain hb | ⟨tail, hb, _⟩ := queryByte_cases b
      · simp [hb]
      · simp [hb]

theorem parsePair_urlQuery (seg : List UInt8) :
    parsePair (urlQuery seg) = parsePair seg := by
  have hequals : IsDivider 0x3D := .inr (.inr rfl)
  have hsemi : IsDivider 0x3B := .inr (.inl rfl)
  have hcut : cutByte 0x3D (urlQuery seg) =
      (urlQuery (cutByte 0x3D seg).1, urlQuery (cutByte 0x3D seg).2) :=
    cutByte_flatMap hequals.kept hequals.not_mem_queryByte seg
  rw [parsePair, parsePair, hcut]
  simp only [mem_urlQuery hsemi, urlQuery_eq_nil, queryUnescape_urlQuery]

/-- What the parser of URLs does to a query, the reader of it undoes. -/
theorem parseQuery_urlQuery (query : List UInt8) :
    parseQuery (urlQuery query) = parseQuery query := by
  have hand : IsDivider 0x26 := .inl rfl
  have hsplit : (urlQuery query).splitOn 0x26 =
      (query.splitOn 0x26).map urlQuery :=
    splitOn_flatMap hand.kept hand.not_mem_queryByte query
  rw [parseQuery, parseQuery, hsplit, List.filterMap_map]
  exact congrArg (List.filterMap · _) (funext parsePair_urlQuery)

/-! ## Pairs come back -/

theorem queryUnescape_formByte (b : UInt8) (rest : List UInt8) :
    queryUnescape (formByte b ++ rest) = (queryUnescape rest).map (b :: ·) := by
  unfold formByte
  split
  · next h =>
      rw [h]
      exact queryUnescape_plus rest
  · split
    · next hsafe =>
        have hpercent : isFormSafe 0x25 = false := by decide
        have hplus : isFormSafe 0x2B = false := by decide
        refine queryUnescape_cons ?_ ?_ rest
        · intro h
          rw [h, hpercent] at hsafe
          cases hsafe
        · intro h
          rw [h, hplus] at hsafe
          cases hsafe
    · exact queryUnescape_percentByte b rest

theorem queryUnescape_formEncode (bs : List UInt8) :
    queryUnescape (formEncode bs) = some bs := by
  induction bs with
  | nil => rfl
  | cons b bs ih =>
      rw [formEncode, List.flatMap_cons, queryUnescape_formByte]
      rw [formEncode] at ih
      rw [ih]
      rfl

/-- What `URLSearchParams` writes for a name or a value. -/
theorem mem_formEncode {bs : List UInt8} {c : UInt8} (h : c ∈ formEncode bs) :
    c = 0x2B ∨ c = 0x25 ∨ isFormSafe c = true := by
  obtain ⟨b, _, hc⟩ := List.mem_flatMap.mp h
  unfold formByte at hc
  split at hc
  · exact .inl (List.mem_singleton.mp hc)
  · split at hc
    · next hsafe =>
        rw [List.mem_singleton.mp hc]
        exact .inr (.inr hsafe)
    · exact .inr (mem_percentByte hc)

theorem IsDivider.not_mem_formEncode {c : UInt8} (h : IsDivider c)
    (bs : List UInt8) : c ∉ formEncode bs := by
  intro hmem
  obtain ⟨hspecial, hpercent⟩ := h.not_safe
  rcases mem_formEncode hmem with heq | heq | hsafe
  · rcases h with rfl | rfl | rfl <;> cases heq
  · exact hpercent heq
  · rw [hspecial] at hsafe
    cases hsafe

theorem parsePair_formEncode (p : List UInt8 × List UInt8) :
    parsePair (formEncode p.1 ++ 0x3D :: formEncode p.2) = some p := by
  have hequals : IsDivider 0x3D := .inr (.inr rfl)
  have hsemi : IsDivider 0x3B := .inr (.inl rfl)
  have hno : 0x3B ∉ formEncode p.1 ++ 0x3D :: formEncode p.2 := by
    rw [List.mem_append, List.mem_cons]
    intro h
    rcases h with h | h | h
    · exact hsemi.not_mem_formEncode p.1 h
    · cases h
    · exact hsemi.not_mem_formEncode p.2 h
  have hcut : cutByte 0x3D (formEncode p.1 ++ 0x3D :: formEncode p.2) =
      (formEncode p.1, formEncode p.2) := by
    rw [cutByte_append (hequals.not_mem_formEncode p.1), cutByte, if_pos rfl,
      List.append_nil]
  rw [parsePair, hcut, queryUnescape_formEncode, queryUnescape_formEncode,
    if_neg (by simp [hno])]

/-- What `URLSearchParams` wrote, the reader has. -/
theorem parseQuery_formString (pairs : List (List UInt8 × List UInt8)) :
    parseQuery (formString pairs) = pairs := by
  have hand : IsDivider 0x26 := .inl rfl
  cases pairs with
  | nil => rfl
  | cons p ps =>
      have hno : ∀ l ∈ (p :: ps).map
          (fun p => formEncode p.1 ++ 0x3D :: formEncode p.2), 0x26 ∉ l := by
        intro l hl
        obtain ⟨q, _, rfl⟩ := List.mem_map.mp hl
        rw [List.mem_append, List.mem_cons]
        intro h
        rcases h with h | h | h
        · exact hand.not_mem_formEncode q.1 h
        · cases h
        · exact hand.not_mem_formEncode q.2 h
      rw [parseQuery, formString, List.splitOn_intercalate 0x26 hno (by simp),
        List.filterMap_map]
      exact (List.filterMap_congr fun q _ => parsePair_formEncode q).trans
        List.filterMap_some

/-- Whatever is written is visible ASCII, and no number sign. -/
def IsPlainByte (b : UInt8) : Prop :=
  0x20 < b.toNat ∧ b.toNat < 0x7F ∧ b.toNat ≠ 0x23

theorem isPlainByte_formEncode {bs : List UInt8} :
    ∀ b ∈ formEncode bs, IsPlainByte b := by
  intro b hb
  rcases mem_formEncode hb with rfl | rfl | hsafe
  · exact ⟨by decide, by decide, by decide⟩
  · exact ⟨by decide, by decide, by decide⟩
  · unfold isFormSafe at hsafe
    rw [decide_eq_true_iff] at hsafe
    unfold IsPlainByte
    omega

theorem isPlainByte_formString {pairs : List (List UInt8 × List UInt8)} :
    ∀ b ∈ formString pairs, IsPlainByte b := by
  have hpair : ∀ p : List UInt8 × List UInt8,
      ∀ b ∈ formEncode p.1 ++ 0x3D :: formEncode p.2, IsPlainByte b := by
    intro p b hb
    rw [List.mem_append, List.mem_cons] at hb
    rcases hb with hb | rfl | hb
    · exact isPlainByte_formEncode b hb
    · exact ⟨by decide, by decide, by decide⟩
    · exact isPlainByte_formEncode b hb
  induction pairs with
  | nil =>
      intro b hb
      cases hb
  | cons p ps ih =>
      unfold formString at ih ⊢
      rw [List.map_cons]
      by_cases hps : ps = []
      · subst hps
        rw [List.map_nil, List.intercalate_singleton]
        exact hpair p
      · rw [List.intercalate_cons_of_ne_nil (by simpa using hps)]
        intro b hb
        simp only [List.mem_append, List.mem_singleton] at hb
        rcases hb with (hb | rfl) | hb
        · exact hpair p b (List.mem_append.mpr (by simpa using hb))
        · exact ⟨by decide, by decide, by decide⟩
        · exact ih b hb

/-! ## A value as it is -/

/-- A text that stands for itself behind the name of a pair. -/
def StandsInQuery (l : List UInt8) : Prop :=
  ∀ c ∈ [0x25, 0x26, 0x2B, 0x3B], c ∉ l

theorem length_queryUnescape {l d : List UInt8} (h : queryUnescape l = some d) :
    d.length ≤ l.length ∧ (d.length = l.length → 0x25 ∉ l) ∧
      (d = l → 0x2B ∉ l) := by
  fun_induction queryUnescape l generalizing d with
  | case1 =>
      cases h
      simp
  | case2 x y rest m n hn hm ih =>
      obtain ⟨d', hd', rfl⟩ := Option.map_eq_some_iff.mp h
      have hle := (ih hd').1
      simp only [List.length_cons]
      refine ⟨by omega, by omega, fun heq => ?_⟩
      have hlen := congrArg List.length heq
      simp only [List.length_cons] at hlen
      omega
  | case3 => cases h
  | case4 => cases h
  | case5 bs hne ih =>
      obtain ⟨d', hd', rfl⟩ := Option.map_eq_some_iff.mp h
      obtain ⟨hle, hlen, _⟩ := ih hd'
      simp only [List.length_cons, List.mem_cons, not_or]
      refine ⟨by omega, fun heq => ⟨Ne.symm hne, hlen (by omega)⟩,
        fun heq => ?_⟩
      cases heq
  | case6 b bs hne hne' ih =>
      obtain ⟨d', hd', rfl⟩ := Option.map_eq_some_iff.mp h
      obtain ⟨hle, hlen, hplus⟩ := ih hd'
      simp only [List.length_cons, List.mem_cons, not_or]
      refine ⟨by omega, fun heq => ⟨Ne.symm hne, hlen (by omega)⟩,
        fun heq => ?_⟩
      exact ⟨Ne.symm hne', hplus (List.cons.inj heq).2⟩

theorem queryUnescape_stands {l : List UInt8} (h : 0x25 ∉ l) (h' : 0x2B ∉ l) :
    queryUnescape l = some l := by
  induction l with
  | nil => rfl
  | cons b l ih =>
      rw [List.mem_cons, not_or] at h h'
      rw [queryUnescape_cons (Ne.symm h.1) (Ne.symm h'.1), ih h.2 h'.2]
      rfl

theorem cutByte_suffix (c : UInt8) (l : List UInt8) :
    (cutByte c l).2 <:+ l := by
  induction l with
  | nil => exact List.suffix_rfl
  | cons b l ih =>
      rw [cutByte]
      split
      · exact List.suffix_cons b l
      · exact ih.trans (List.suffix_cons b l)

/-- A value that is read comes from one piece of the query. -/
theorem queryGet_cases (query key : List UInt8) : queryGet query key = [] ∨
    ∃ seg ∈ query.splitOn 0x26, 0x3B ∉ seg ∧
      queryUnescape (cutByte 0x3D seg).2 = some (queryGet query key) := by
  unfold queryGet
  cases hv : (parseQuery query).lookup key with
  | none => exact .inl rfl
  | some v =>
      obtain ⟨before, after, hpairs, _⟩ := List.lookup_eq_some_iff.mp hv
      have hmem : (key, v) ∈ parseQuery query := by
        rw [hpairs]
        simp
      obtain ⟨seg, hseg, hparse⟩ := List.mem_filterMap.mp hmem
      refine .inr ⟨seg, hseg, ?_⟩
      unfold parsePair at hparse
      split at hparse
      · cases hparse
      · next hno =>
          split at hparse
          · next k' v' _ hv' =>
              cases hparse
              exact ⟨fun h => hno (.inl h), hv'⟩
          · cases hparse

section
variable {key w : List UInt8}

/-- The text that a value is read from, when the value was put behind its name
as it is. It is shorter, or it is that. -/
theorem queryGet_raw_cases (hand : 0x26 ∉ key) (hequals : 0x3D ∉ key) :
    queryGet (key ++ 0x3D :: w) key = [] ∨ ∃ x, x.length ≤ w.length ∧
      (x.length = w.length → x = w ∧ 0x26 ∉ w ∧ 0x3B ∉ w) ∧
      queryUnescape x = some (queryGet (key ++ 0x3D :: w) key) := by
  rcases queryGet_cases (key ++ 0x3D :: w) key with
    hnone | ⟨seg, hseg, hsemi, hvalue⟩
  · exact .inl hnone
  · refine .inr ⟨(cutByte 0x3D seg).2, ?_⟩
    have hbefore : (0x26 : UInt8) ∉ key ++ [0x3D] := by
      rw [List.mem_append, List.mem_singleton]
      intro h
      rcases h with h | h
      · exact hand h
      · cases h
    rw [show key ++ 0x3D :: w = (key ++ [0x3D]) ++ w by simp,
      splitOn_append_of_not_mem hbefore] at hseg
    cases hw : w.splitOn 0x26 with
    | nil => exact absurd hw (List.splitOn_ne_nil _ w)
    | cons first rest =>
        rw [hw, List.modifyHead_cons] at hseg
        have hpiece : ∀ p ∈ first :: rest, p.length ≤ w.length ∧
            (p.length = w.length → p = w ∧ 0x26 ∉ w) := by
          intro p hp
          rw [← hw] at hp
          have hinside := infix_of_mem_splitOn hp
          refine ⟨hinside.length_le, fun hlen => ?_⟩
          have heq := hinside.eq_of_length hlen
          exact ⟨heq, heq ▸ (of_mem_splitOn p hp).1⟩
        rcases List.mem_cons.mp hseg with rfl | hseg
        · -- the piece with the name in it
          have hcut : (cutByte 0x3D (key ++ [0x3D] ++ first)).2 = first := by
            rw [List.append_assoc, cutByte_append hequals]
            rfl
          obtain ⟨hle, heq⟩ := hpiece first List.mem_cons_self
          rw [hcut] at hvalue ⊢
          refine ⟨hle, fun hlen => ⟨(heq hlen).1, (heq hlen).2, ?_⟩, hvalue⟩
          rw [← (heq hlen).1]
          exact fun h => hsemi (List.mem_append_right _ h)
        · -- a later one is shorter than the value
          have hsuffix := cutByte_suffix 0x3D seg
          obtain ⟨hle, heq⟩ := hpiece seg (List.mem_cons_of_mem _ hseg)
          have hshort := hsuffix.length_le
          refine ⟨by omega, fun hlen => ?_, hvalue⟩
          have hno := (heq (by omega)).2
          rw [List.splitOn_eq_singleton hno, List.cons.injEq] at hw
          rw [← hw.2] at hseg
          cases hseg

theorem length_queryGet_raw (hand : 0x26 ∉ key) (hequals : 0x3D ∉ key) :
    (queryGet (key ++ 0x3D :: w) key).length ≤ w.length := by
  rcases queryGet_raw_cases (w := w) hand hequals with
    hnone | ⟨x, hle, _, hvalue⟩
  · simp [hnone]
  · have := (length_queryUnescape hvalue).1
    omega

theorem parseQuery_raw (hkey : StandsInQuery key) (hequals : 0x3D ∉ key)
    (hw : StandsInQuery w) : parseQuery (key ++ 0x3D :: w) = [(key, w)] := by
  have hunescape : ∀ l, StandsInQuery l → queryUnescape l = some l :=
    fun l hl => queryUnescape_stands (hl _ (by decide)) (hl _ (by decide))
  have hno : ∀ c ∈ [0x26, 0x3B], c ∉ key ++ 0x3D :: w := by
    intro c hc h
    have hc' : c ∈ [0x25, 0x26, 0x2B, 0x3B] ∧ c ≠ 0x3D := by
      simp only [List.mem_cons, List.not_mem_nil, or_false] at hc
      rcases hc with rfl | rfl <;> decide
    rw [List.mem_append, List.mem_cons] at h
    rcases h with h | h | h
    · exact hkey c hc'.1 h
    · exact hc'.2 h
    · exact hw c hc'.1 h
  have hcut : cutByte 0x3D (key ++ 0x3D :: w) = (key, w) := by
    rw [cutByte_append hequals, cutByte, if_pos rfl, List.append_nil]
  rw [parseQuery, List.splitOn_eq_singleton (hno 0x26 (by decide)),
    List.filterMap_cons, parsePair, hcut, hunescape key hkey, hunescape w hw,
    if_neg (by simp [hno 0x3B (by decide)])]
  rfl

/-- A value comes back if and only if it stands for itself. -/
theorem queryGet_raw_iff (hkey : StandsInQuery key) (hequals : 0x3D ∉ key) :
    queryGet (key ++ 0x3D :: w) key = w ↔ StandsInQuery w := by
  have hand : (0x26 : UInt8) ∉ key := hkey _ (by decide)
  constructor
  · intro h
    rcases queryGet_raw_cases (w := w) hand hequals with
      hnone | ⟨x, hle, heq, hvalue⟩
    · rw [h] at hnone
      subst hnone
      intro c _
      exact List.not_mem_nil
    · rw [h] at hvalue
      obtain ⟨hshort, hpercent, hplus⟩ := length_queryUnescape hvalue
      obtain ⟨rfl, hno⟩ := heq (by omega)
      intro c hc
      simp only [List.mem_cons, List.not_mem_nil, or_false] at hc
      rcases hc with rfl | rfl | rfl | rfl
      · exact hpercent rfl
      · exact hno.1
      · exact hplus rfl
      · exact hno.2
  · intro hw
    rw [queryGet, parseQuery_raw hkey hequals hw]
    simp

end

end Vexil.Lib
