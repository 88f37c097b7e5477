import Vexil.Web.FlagForms

/-!
# The text of a labels field

A text is read piece by piece, and each piece gives one entry. What becomes of a
piece depends on the other pieces only through its key: of the entries with one
key the last counts, and if that one has no value there is no label.
-/

namespace Vexil.Web

open Vexil.Lib

/-- The parts between commas, trimmed. -/
def pieces (text : String) : List String := (split text ',').map Js.trim

/-- What is before the first `=` of a piece. -/
def pieceKey (p : String) : String := (split p '=').headD ""

theorem labelEntries_eq (text : String) :
    labelEntries text = Js.fromEntries
      ((pieces text).map fun p => entryOf (split p '=')) := by
  rw [pieces, List.map_map]
  rfl

/-- Of the pieces with one key the last counts. -/
def Counts (text p : String) : Prop :=
  ((pieces text).filter fun p' => pieceKey p' = pieceKey p).getLast? = some p

instance (text p : String) : Decidable (Counts text p) :=
  inferInstanceAs (Decidable (_ = _))

theorem Counts.mem {text p : String} (h : Counts text p) : p ∈ pieces text :=
  (List.mem_filter.mp (List.mem_of_getLast? h)).1

/-- The labels of a text are the values of the pieces that count. -/
theorem lookup_labelsOf_iff {text k v : String} :
    (labelsOf text).lookup k = some v ↔
      ∃ p, Counts text p ∧ pieceKey p = k ∧ (split p '=')[1]? = some v := by
  rw [labelsOf, Js.lookup_stringified, Option.join_eq_some_iff,
    labelEntries_eq, Js.lookup_fromEntries, List.filter_map, List.getLast?_map,
    Option.map_map, Option.map_eq_some_iff]
  constructor
  · rintro ⟨p, hlast, hv⟩
    obtain rfl : pieceKey p = k :=
      of_decide_eq_true (List.mem_filter.mp (List.mem_of_getLast? hlast)).2
    exact ⟨p, hlast, rfl, hv⟩
  · rintro ⟨p, hcounts, rfl, hv⟩
    exact ⟨p, hcounts, hv⟩

/-- A label comes from one of the pieces. -/
theorem piece_of_lookup {text k v : String}
    (h : (labelsOf text).lookup k = some v) :
    ∃ p ∈ pieces text, entryOf (split p '=') = (k, some v) := by
  obtain ⟨p, hcounts, rfl, hv⟩ := lookup_labelsOf_iff.mp h
  exact ⟨p, hcounts.mem, Prod.ext rfl hv⟩

theorem Counts.unique {text p p' : String} (h : Counts text p)
    (h' : Counts text p') (hkey : pieceKey p = pieceKey p') : p = p' := by
  unfold Counts at h h'
  rw [hkey, h'] at h
  exact (Option.some.inj h).symm

theorem counts_of_unique {text p : String} (hp : p ∈ pieces text)
    (hkey : ∀ p' ∈ pieces text, pieceKey p' = pieceKey p → p' = p) :
    Counts text p := by
  unfold Counts
  cases hlast : ((pieces text).filter fun p' =>
      pieceKey p' = pieceKey p).getLast? with
  | none =>
      rw [List.getLast?_eq_none_iff, List.filter_eq_nil_iff] at hlast
      exact absurd (decide_eq_true rfl) (hlast p hp)
  | some p' =>
      obtain ⟨hp', hsame⟩ := List.mem_filter.mp (List.mem_of_getLast? hlast)
      rw [hkey p' hp' (of_decide_eq_true hsame)]

/-- A piece gives its label if no other one has its key. -/
theorem lookup_of_piece {text p : String} (hp : p ∈ pieces text)
    (hkey : ∀ p' ∈ pieces text, pieceKey p' = pieceKey p → p' = p) :
    (labelsOf text).lookup (pieceKey p) = (split p '=')[1]? := by
  have hcounts := counts_of_unique hp hkey
  ext v
  refine lookup_labelsOf_iff.trans ⟨?_, fun hv => ⟨p, hcounts, rfl, hv⟩⟩
  rintro ⟨p', hcounts', hsame, hv⟩
  rwa [hcounts'.unique hcounts hsame] at hv

/-! ## One piece -/

theorem split_assignment {k v : String} (hk : '=' ∉ k.toList) :
    split (k ++ "=" ++ v) '=' = k :: split v '=' := split_append (c := '=') hk

theorem trim_assignment {k : String} (hk : Js.FlushLeft k) (v : String) :
    Js.trim (k ++ "=" ++ v) = k ++ "=" ++ Js.trimEnd v :=
  Js.trim_append (c := '=') hk (by decide)

theorem pieceKey_assignment {k v : String} (hk : '=' ∉ k.toList) :
    pieceKey (k ++ "=" ++ v) = k := by
  rw [pieceKey, split_assignment hk]
  rfl

/-- A piece, cut at its first `=`. -/
theorem assignment_of_mem {p : String} (h : '=' ∈ p.toList) :
    ∃ k v, p = k ++ "=" ++ v ∧ '=' ∉ k.toList := by
  obtain ⟨k, v, hp, hk⟩ := List.eq_append_cons_of_mem h
  refine ⟨String.ofList k, String.ofList v, ?_, by simpa using hk⟩
  rw [← String.toList_inj, hp]
  simp

theorem of_mem_pieces {text p : String} (h : p ∈ pieces text) :
    ',' ∉ p.toList ∧ Js.FlushLeft p := by
  obtain ⟨l, hl, rfl⟩ := List.mem_map.mp h
  exact ⟨fun hc => (of_mem_split hl).1 (Js.trim_subset l hc),
    Js.flushLeft_trim l⟩

/-- Text that can stand before or after the `=` of a label. -/
def Separable (s : String) : Prop := ',' ∉ s.toList ∧ '=' ∉ s.toList

instance (s : String) : Decidable (Separable s) :=
  inferInstanceAs (Decidable (_ ∧ _))

theorem separable_of_mem {p part : String} (hp : ',' ∉ p.toList)
    (h : part ∈ split p '=') : Separable part :=
  ⟨fun hc => hp ((of_mem_split h).2 hc), (of_mem_split h).1⟩

/-- Every label of a text has the form of one. -/
theorem separable_of_lookup {text k v : String}
    (h : (labelsOf text).lookup k = some v) :
    Separable k ∧ Js.FlushLeft k ∧ Separable v := by
  obtain ⟨p, hp, hentry⟩ := piece_of_lookup h
  obtain ⟨hcomma, hflush⟩ := of_mem_pieces hp
  obtain ⟨hk, hv⟩ := Prod.mk.inj hentry
  have hvalue := separable_of_mem hcomma (List.mem_of_getElem? hv)
  by_cases heq : '=' ∈ p.toList
  · obtain ⟨k', v', rfl, hk'⟩ := assignment_of_mem heq
    rw [split_assignment hk', List.headD_cons] at hk
    subst hk
    refine ⟨separable_of_mem hcomma ?_, ?_, hvalue⟩
    · rw [split_assignment hk']
      exact List.mem_cons_self
    · intro c hc
      refine hflush c ?_
      rw [String.toList_append, String.toList_append, List.append_assoc,
        List.head?_append, hc]
      rfl
  · rw [split_of_not_mem heq] at hv
    cases hv

/-! ## Labels as text, and back -/

/-- A label that a text can spell. -/
structure CleanLabel (k v : String) : Prop where
  key : Separable k
  keyFlush : Js.FlushLeft k
  value : Separable v
  valueFlush : Js.FlushRight v

def Clean (labels : GoMap String) : Prop :=
  ∀ k v, labels.lookup k = some v → CleanLabel k v

/-- But for white space at the end of a value. -/
theorem Clean.form {labels : GoMap String} (h : Clean labels) (k v : String)
    (hv : labels.lookup k = some v) :
    Separable k ∧ Js.FlushLeft k ∧ Separable v :=
  ⟨(h k v hv).key, (h k v hv).keyFlush, (h k v hv).value⟩

section
variable {order : GoMap String → List String} {labels : GoMap String}

/-- The text that stands for one of the labels, when it is read. -/
def assignment (labels : GoMap String) (k : String) : String :=
  k ++ "=" ++ Js.trimEnd (labels.index k)

theorem pieces_labelsText (hne : order labels ≠ [])
    (hform : ∀ k ∈ order labels,
      Separable k ∧ Js.FlushLeft k ∧ Separable (labels.index k)) :
    pieces (labelsText order labels) =
      (order labels).map (assignment labels) := by
  have hparts : ∀ p ∈ (order labels).map fun k => k ++ "=" ++ labels.index k,
      ',' ∉ p.toList := by
    intro p hp
    obtain ⟨k, hk, rfl⟩ := List.mem_map.mp hp
    obtain ⟨hkey, _, hvalue⟩ := hform k hk
    simpa using ⟨hkey.1, hvalue.1⟩
  have hsplit : split (labelsText order labels) ',' =
      (order labels).map fun k => k ++ "=" ++ labels.index k :=
    split_intercalate (c := ',') hparts (by simpa using hne)
  rw [pieces, hsplit, List.map_map]
  exact List.map_congr_left fun k hk =>
    trim_assignment (hform k hk).2.1 (labels.index k)

theorem order_eq_nil_iff (horder : labels.Ranges (order labels)) :
    order labels = [] ↔ labels = ∅ := by
  rw [List.eq_nil_iff_forall_not_mem]
  simp only [horder.2]
  constructor
  · intro h
    refine Finmap.ext_lookup fun k => ?_
    rw [Finmap.lookup_eq_none.mpr (h k), Finmap.lookup_empty]
  · rintro rfl k
    exact Finmap.notMem_empty

/-- Only where there are no labels is there no text. -/
theorem labelsText_eq_empty_iff (horder : labels.Ranges (order labels)) :
    labelsText order labels = "" ↔ labels = ∅ := by
  rw [← order_eq_nil_iff horder, labelsText]
  cases order labels with
  | nil => simp
  | cons k ks =>
      refine iff_of_false (fun h => ?_) (List.cons_ne_nil k ks)
      have hmem : '=' ∈ (",".intercalate ((k :: ks).map fun k =>
          k ++ "=" ++ labels.index k)).toList := by
        cases ks with
        | nil => simp
        | cons k' ks => simp
      rw [h] at hmem
      cases hmem

theorem labelsText_of_nil (h : order labels = []) (k : String) :
    (labelsOf (labelsText order labels)).lookup k = none := by
  rw [Option.eq_none_iff_forall_not_mem]
  intro v hv
  obtain ⟨p, hp, hentry⟩ := piece_of_lookup hv
  have hpiece : pieces (labelsText order labels) = [""] := by
    rw [labelsText, h, List.map_nil, String.intercalate_nil]
    decide
  rw [hpiece] at hp
  obtain rfl := List.mem_singleton.mp hp
  cases (Prod.mk.inj hentry).2

/-- What a text spells of labels that have the form of one. -/
theorem lookup_labelsText (horder : labels.Ranges (order labels))
    (hform : ∀ k v, labels.lookup k = some v →
      Separable k ∧ Js.FlushLeft k ∧ Separable v) (k : String) :
    (labelsOf (labelsText order labels)).lookup k =
      (labels.lookup k).map Js.trimEnd := by
  have hsome : ∀ k ∈ order labels, ∃ v, labels.lookup k = some v :=
    fun k hk => Finmap.mem_iff.mp ((horder.2 k).mp hk)
  by_cases hne : order labels = []
  · have hnot : k ∉ labels := fun hk => by
      simpa [hne] using (horder.2 k).mpr hk
    have hnone : labels.lookup k = none := Finmap.lookup_eq_none.mpr hnot
    rw [labelsText_of_nil hne, hnone]
    rfl
  have hform' : ∀ k ∈ order labels,
      Separable k ∧ Js.FlushLeft k ∧ Separable (labels.index k) :=
    horder.forall_index hform
  have hpieces := pieces_labelsText hne hform'
  have hkey : ∀ k ∈ order labels, pieceKey (assignment labels k) = k :=
    fun k hk => pieceKey_assignment (hform' k hk).1.2
  cases hlookup : labels.lookup k with
  | none =>
      rw [Option.map_none, Option.eq_none_iff_forall_not_mem]
      intro v hv
      obtain ⟨p, hp, hentry⟩ := piece_of_lookup hv
      rw [hpieces] at hp
      obtain ⟨k', hk', rfl⟩ := List.mem_map.mp hp
      obtain rfl : k' = k := (hkey k' hk').symm.trans (Prod.mk.inj hentry).1
      obtain ⟨v', hv'⟩ := hsome k' hk'
      rw [hlookup] at hv'
      cases hv'
  | some v =>
      have hk : k ∈ order labels :=
        (horder.2 k).mpr (Finmap.mem_iff.mpr ⟨v, hlookup⟩)
      have hmem : assignment labels k ∈ pieces (labelsText order labels) :=
        hpieces ▸ List.mem_map_of_mem hk
      have honly : ∀ p ∈ pieces (labelsText order labels),
          pieceKey p = pieceKey (assignment labels k) →
            p = assignment labels k := by
        intro p hp hsame
        rw [hpieces] at hp
        obtain ⟨k', hk', rfl⟩ := List.mem_map.mp hp
        rw [hkey k' hk', hkey k hk] at hsame
        rw [hsame]
      have hvalue : '=' ∉ (Js.trimEnd v).toList := by
        intro h
        rw [Js.trimEnd, String.toList_ofList] at h
        exact (hform k v hlookup).2.2.2
          ((List.rdropWhile_prefix _ _).subset h)
      have hlabel := lookup_of_piece hmem honly
      rw [hkey k hk, assignment, GoMap.index_of_lookup hlookup,
        split_assignment (hform k v hlookup).1.2, split_of_not_mem hvalue]
        at hlabel
      exact hlabel

/-- Labels come back from their text exactly if a text can spell them. -/
theorem labelsOf_labelsText_iff (horder : labels.Ranges (order labels)) :
    labelsOf (labelsText order labels) = labels ↔ Clean labels := by
  constructor
  · intro h k v hv
    have hform : ∀ k v, labels.lookup k = some v →
        Separable k ∧ Js.FlushLeft k ∧ Separable v := by
      intro k v hv
      rw [← h] at hv
      exact separable_of_lookup hv
    have hlookup := lookup_labelsText horder hform k
    rw [h, hv] at hlookup
    obtain ⟨hkey, hflush, hvalue⟩ := hform k v hv
    exact ⟨hkey, hflush, hvalue,
      Js.trimEnd_eq_self_iff.mp (Option.some.inj hlookup).symm⟩
  · intro hclean
    refine Finmap.ext_lookup fun k => ?_
    rw [lookup_labelsText horder hclean.form]
    cases hv : labels.lookup k with
    | none => rfl
    | some v =>
        exact congrArg some
          (Js.trimEnd_eq_self_iff.mpr (hclean k v hv).valueFlush)

theorem labelsOf_empty (horder : labels.Ranges (order labels))
    (h : labelsText order labels = "") :
    labelsOf (labelsText order labels) = ∅ := by
  obtain rfl := (labelsText_eq_empty_iff horder).mp h
  refine (labelsOf_labelsText_iff horder).mpr fun k v hv => ?_
  rw [Finmap.lookup_empty] at hv
  cases hv

end

end Vexil.Web
