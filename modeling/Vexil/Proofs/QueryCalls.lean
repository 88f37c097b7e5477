import Vexil.Proofs.ResourcePaths
import Vexil.Sdk.Cache
import Vexil.Web.QueryCalls

/-!
# What a query leads back to

The console writes a query in two ways. A list is asked for through
`URLSearchParams`, and then the server reads what was given, whatever it was. A
call on one flag puts the id of the cluster into the query as it is, and then
the server reads that id if and only if it stands for itself there; nothing
looks for that when a cluster is registered. The flag is the right one either
way, so a call with another id asks another cluster for the flag of that name,
or none.

What the id is turned into on the way is shorter than it was unless nothing
happened, and that is what both directions rest on: the parser of URLs trims and
drops, the reader divides and decodes, and none of them adds a byte.
-/

namespace Vexil.Web

open Vexil.Lib Vexil.Kube Vexil.Server Vexil.Sdk

/-! ## The text of a query -/

/-- A character that is left where it is at the end of a URL and before its
query. -/
def IsVisible (c : Char) : Prop := 0x20 < c.toNat

instance (c : Char) : Decidable (IsVisible c) := Nat.decLt _ _

theorem IsVisible.not_control {c : Char} (h : IsVisible c) :
    ¬ isControlOrSpace c = true := by
  rw [isControlOrSpace, decide_eq_true_iff]
  exact Nat.not_le.mpr h

theorem IsVisible.not_tab {c : Char} (h : IsVisible c) :
    ¬ isTabOrNewline c = true := by
  rw [isTabOrNewline, decide_eq_true_iff]
  intro htab
  rcases htab with rfl | rfl | rfl
  · exact absurd h (by decide)
  · exact absurd h (by decide)
  · exact absurd h (by decide)

/-- What becomes of the end of a URL. -/
def trimmedEnd (l : List Char) : List Char :=
  (l.rdropWhile isControlOrSpace).filter fun c => ¬ isTabOrNewline c

theorem urlText_append {a : List Char} (hne : a ≠ [])
    (ha : ∀ c ∈ a, IsVisible c) (b : List Char) :
    urlText (a ++ b) = a ++ trimmedEnd b := by
  have hfilter : a.filter (fun c => ¬ isTabOrNewline c) = a := by
    rw [List.filter_eq_self]
    intro c hc
    simpa using (ha c hc).not_tab
  have hhead : (a ++ b).dropWhile isControlOrSpace = a ++ b := by
    cases a with
    | nil => exact absurd rfl hne
    | cons c a =>
        exact List.dropWhile_cons_of_neg (ha c List.mem_cons_self).not_control
  have hend : (a ++ b).rdropWhile isControlOrSpace =
      a ++ b.rdropWhile isControlOrSpace := by
    have hlast : a.reverse.dropWhile isControlOrSpace = a.reverse := by
      cases hr : a.reverse with
      | nil => rfl
      | cons c r =>
          have hc : c ∈ a := by
            rw [← List.mem_reverse, hr]
            exact List.mem_cons_self
          exact List.dropWhile_cons_of_neg (ha c hc).not_control
    unfold List.rdropWhile
    rw [List.reverse_append, List.dropWhile_append, hlast]
    split
    · next hnil =>
        rw [List.isEmpty_iff] at hnil
        simp [hnil]
    · simp
  rw [urlText, trimBy, hhead, hend, List.filter_append, hfilter]
  rfl

/-- Characters that do not end the path of a URL. -/
def IsPathChar (c : Char) : Prop := IsVisible c ∧ c ≠ '?' ∧ c ≠ '#'

theorem queryText_append {a : List Char} (ha : ∀ c ∈ a, IsPathChar c)
    (b : List Char) : queryText (a ++ '?' :: b) =
      b.takeWhile fun c => c ≠ '#' := by
  have hdrop : (a ++ '?' :: b).dropWhile (fun c => c ≠ '?' ∧ c ≠ '#') =
      '?' :: b := by
    rw [List.dropWhile_append_of_pos (by simpa using fun c hc => (ha c hc).2)]
    exact List.dropWhile_cons_of_neg (by decide)
  unfold queryText
  rw [hdrop]
  rfl

theorem queryText_path {a : List Char} (ha : ∀ c ∈ a, IsPathChar c) :
    queryText a = [] := by
  have hdrop : a.dropWhile (fun c => c ≠ '?' ∧ c ≠ '#') = [] := by
    rw [List.dropWhile_eq_nil_iff]
    simpa using fun c hc => (ha c hc).2
  unfold queryText
  rw [hdrop]

/-- The query that the end of a URL becomes. -/
def queryEnd (l : List Char) : List Char :=
  (trimmedEnd l).takeWhile fun c => c ≠ '#'

/-- The query of a URL whose path and whose first name are plain. -/
theorem rawQuery_eq {c : ApiCall} {path name rest : List Char}
    (hurl : (apiBase ++ c.path).toList = path ++ '?' :: (name ++ rest))
    (hpath : ∀ c ∈ path, IsPathChar c) (hname : ∀ c ∈ name, IsPathChar c) :
    c.rawQuery =
      urlQuery (Utf8.encode (String.ofList (name ++ queryEnd rest))) := by
  have hvisible : ∀ c ∈ path ++ '?' :: name, IsVisible c := by
    intro c hc
    rw [List.mem_append, List.mem_cons] at hc
    rcases hc with hc | rfl | hc
    · exact (hpath c hc).1
    · decide
    · exact (hname c hc).1
  have hname' : ∀ c ∈ name, decide (c ≠ '#') = true := by
    intro c hc
    exact decide_eq_true (hname c hc).2.2
  rw [ApiCall.rawQuery, hurl,
    show path ++ '?' :: (name ++ rest) = (path ++ '?' :: name) ++ rest by simp,
    urlText_append (by simp) hvisible,
    show (path ++ '?' :: name) ++ trimmedEnd rest =
      path ++ '?' :: (name ++ trimmedEnd rest) by simp,
    queryText_append hpath, List.takeWhile_append_of_pos hname']
  rfl

/-! ## Searches -/

theorem toNat_ofNat_ascii {n : Nat} (h : n < 0x80) :
    (Char.ofNat n).toNat = n := by
  have hvalid : n.isValidChar := .inl (by omega)
  rw [Char.ofNat, dif_pos hvalid]
  rfl

theorem encode_asciiText {bs : List UInt8} (h : ∀ b ∈ bs, b.toNat < 0x80) :
    Utf8.encode (asciiText bs) = bs := by
  rw [Utf8.encode, asciiText, String.toList_ofList, List.flatMap_map]
  induction bs with
  | nil => rfl
  | cons b bs ih =>
      obtain ⟨hb, hbs⟩ := List.forall_mem_cons.mp h
      have hnat := toNat_ofNat_ascii hb
      rw [List.flatMap_cons, ih hbs, Utf8.encodeChar_ascii (by omega), hnat,
        UInt8.ofNat_toNat]
      rfl

/-- A query that stays as it was written. -/
theorem asciiText_stays {bs : List UInt8} (h : ∀ b ∈ bs, IsPlainByte b) :
    queryEnd (asciiText bs).toList = (asciiText bs).toList := by
  have hchars : ∀ c ∈ (asciiText bs).toList, IsVisible c ∧ c ≠ '#' := by
    intro c hc
    rw [asciiText, String.toList_ofList, List.mem_map] at hc
    obtain ⟨b, hb, rfl⟩ := hc
    obtain ⟨hlow, hhigh, hsharp⟩ := h b hb
    have hnat := toNat_ofNat_ascii (n := b.toNat) (by omega)
    refine ⟨?_, fun heq => hsharp ?_⟩
    · show 0x20 < (Char.ofNat b.toNat).toNat
      omega
    · rw [← hnat, heq]
      rfl
  have htrim : (asciiText bs).toList.rdropWhile isControlOrSpace =
      (asciiText bs).toList := by
    rw [List.rdropWhile_eq_self_iff]
    intro hl
    exact (hchars _ (List.getLast_mem hl)).1.not_control
  rw [queryEnd, trimmedEnd, htrim, List.filter_eq_self.mpr,
    List.takeWhile_eq_self_iff.mpr]
  · exact fun c hc => decide_eq_true (hchars c hc).2
  · intro c hc
    simpa using (hchars c hc).1.not_tab

theorem searchParams_cons (name : String) (value : Option String)
    (params : List (String × Option String)) :
    searchParams ((name, value) :: params) =
      match value.filter (· ≠ "") with
      | none => searchParams params
      | some v => (Utf8.encode name, Utf8.encode v) :: searchParams params := by
  rw [searchParams, List.filterMap_cons]
  dsimp only
  cases value.filter (· ≠ "") with
  | none => rfl
  | some v => rfl

theorem lookup_searchParams {params : List (String × Option String)}
    (hnodup : (params.map Prod.fst).Nodup) (key : String) :
    (searchParams params).lookup (Utf8.encode key) =
      ((params.lookup key).join.filter (· ≠ "")).map Utf8.encode := by
  induction params with
  | nil => rfl
  | cons p params ih =>
      obtain ⟨name, value⟩ := p
      rw [List.map_cons, List.nodup_cons] at hnodup
      have hrest := ih hnodup.2
      rw [List.lookup_cons, searchParams_cons]
      by_cases hkey : key = name
      · subst hkey
        have hnone : params.lookup key = none := by
          rw [List.lookup_eq_none_iff]
          intro q hq
          have hne : key ≠ q.1 := by
            intro h
            exact hnodup.1 (List.mem_map.mpr ⟨q, hq, h.symm⟩)
          simpa using hne
        rw [hnone] at hrest
        rw [beq_self_eq_true, Option.join_some]
        cases value.filter (· ≠ "") with
        | none => exact hrest
        | some v => simp
      · have hne : Utf8.encode key ≠ Utf8.encode name :=
          fun h => hkey (Utf8.encode_inj.mp h)
        rw [beq_eq_false_iff_ne.mpr hkey, ← hrest]
        cases value.filter (· ≠ "") with
        | none => rfl
        | some v => rw [List.lookup_cons, beq_eq_false_iff_ne.mpr hne]

/-- A search is read as it was given. -/
theorem search_get {method path : String}
    {params : List (String × Option String)}
    (hpath : ∀ c ∈ (apiBase ++ path).toList, IsPathChar c)
    (hnodup : (params.map Prod.fst).Nodup) (key : String) :
    queryGet (ApiCall.rawQuery ⟨method, withSearch path params⟩)
        (Utf8.encode key) =
      Utf8.encode ((params.lookup key).join.getD "") := by
  have hplain : ∀ b ∈ formString (searchParams params), IsPlainByte b :=
    isPlainByte_formString
  have hascii : ∀ b ∈ formString (searchParams params), b.toNat < 0x80 := by
    intro b hb
    have := (hplain b hb).2.1
    omega
  have hraw : ApiCall.rawQuery ⟨method, withSearch path params⟩ =
      urlQuery (formString (searchParams params)) := by
    by_cases hqs : asciiText (formString (searchParams params)) = ""
    · have hnil := encode_asciiText hascii
      rw [hqs] at hnil
      have hurl : urlText (apiBase ++ path).toList =
          (apiBase ++ path).toList := by
        have happend := urlText_append (by simp [apiBase])
          (fun c hc => (hpath c hc).1) []
        rwa [List.append_nil, show trimmedEnd [] = [] from rfl,
          List.append_nil] at happend
      rw [ApiCall.rawQuery, withSearch, if_pos hqs, hurl, queryText_path hpath,
        ← hnil]
    · have hurl : (apiBase ++ withSearch path params).toList =
          (apiBase ++ path).toList ++ '?' ::
            ([] ++ (asciiText (formString (searchParams params))).toList) := by
        rw [withSearch, if_neg hqs, ← String.append_assoc,
          ← String.append_assoc, String.toList_append, String.toList_append]
        simp only [List.append_assoc]
        rfl
      have hname : ∀ c ∈ ([] : List Char), IsPathChar c := by simp
      have hquery := rawQuery_eq (c := ⟨method, withSearch path params⟩) hurl
        hpath hname
      rw [hquery, asciiText_stays hplain, List.nil_append,
        String.ofList_toList, encode_asciiText hascii]
  rw [hraw, queryGet, parseQuery_urlQuery, parseQuery_formString,
    lookup_searchParams hnodup]
  cases (params.lookup key).join with
  | none => rfl
  | some v =>
      by_cases hv : v = ""
      · subst hv
        rfl
      · simp [Option.filter, hv]

theorem search_query {method path : String} {r : Request}
    {params : List (String × Option String)}
    (hpath : ∀ c ∈ (apiBase ++ path).toList, IsPathChar c)
    (hnodup : (params.map Prod.fst).Nodup)
    (h : ApiCall.Arrives ⟨method, withSearch path params⟩ r) (key : String) :
    r.query key = (params.lookup key).join.getD "" :=
  Utf8.encode_inj.mp ((h.query key).trans (search_get hpath hnodup key))

/-! ## A value as it is -/

/-- A text that stands for itself as the last value of a URL. -/
structure QueryPlain (text : String) : Prop where
  chars : ∀ c ∈ ['%', '&', '+', ';', '#', '\t', '\n', '\r'], c ∉ text.toList
  last : ∀ c ∈ text.toList.getLast?, IsVisible c

theorem trimmedEnd_sublist (l : List Char) : (trimmedEnd l).Sublist l :=
  List.filter_sublist.trans (List.rdropWhile_prefix _ l).sublist

theorem queryEnd_sublist (l : List Char) : (queryEnd l).Sublist l :=
  (List.takeWhile_prefix _).sublist.trans (trimmedEnd_sublist l)

theorem queryEnd_eq_self_iff {l : List Char} : queryEnd l = l ↔
    (∀ c ∈ l, c ≠ '#' ∧ ¬ isTabOrNewline c = true) ∧
      ∀ c ∈ l.getLast?, IsVisible c := by
  have hlast : l.rdropWhile isControlOrSpace = l ↔
      ∀ c ∈ l.getLast?, IsVisible c := by
    rw [List.rdropWhile_eq_self_iff]
    constructor
    · intro h c hc
      obtain ⟨hne, rfl⟩ := List.mem_getLast?_eq_getLast hc
      have hnot := h hne
      rw [isControlOrSpace, decide_eq_true_iff, Nat.not_le] at hnot
      exact hnot
    · intro h hne
      exact (h _ (List.getLast?_eq_some_getLast hne)).not_control
  constructor
  · intro h
    -- no step took anything away
    have htrim : trimmedEnd l = l := by
      refine (trimmedEnd_sublist l).antisymm ?_
      have hsub := (List.takeWhile_prefix (p := fun c => decide (c ≠ '#'))
        (l := trimmedEnd l)).sublist
      rwa [show (trimmedEnd l).takeWhile (fun c => decide (c ≠ '#')) = l
        from h] at hsub
    have hdrop : l.rdropWhile isControlOrSpace = l := by
      refine (List.rdropWhile_prefix _ l).sublist.antisymm ?_
      have hsub := List.filter_sublist (p := fun c => decide
        (¬ isTabOrNewline c = true)) (l := l.rdropWhile isControlOrSpace)
      rwa [show (l.rdropWhile isControlOrSpace).filter
        (fun c => decide (¬ isTabOrNewline c = true)) = l from htrim] at hsub
    rw [queryEnd, htrim, List.takeWhile_eq_self_iff] at h
    rw [trimmedEnd, hdrop, List.filter_eq_self] at htrim
    refine ⟨fun c hc => ⟨of_decide_eq_true (h c hc), ?_⟩, hlast.mp hdrop⟩
    exact of_decide_eq_true (htrim c hc)
  · intro h
    rw [queryEnd, trimmedEnd, hlast.mpr h.2, List.filter_eq_self.mpr,
      List.takeWhile_eq_self_iff.mpr]
    · exact fun c hc => decide_eq_true (h.1 c hc).1
    · exact fun c hc => decide_eq_true (h.1 c hc).2

theorem standsInQuery_encode {text : String} :
    StandsInQuery (Utf8.encode text) ↔
      ∀ c ∈ ['%', '&', '+', ';'], c ∉ text.toList := by
  have hmem : ∀ c : Char, c.toNat < 0x80 →
      (UInt8.ofNat c.toNat ∉ Utf8.encode text ↔ c ∉ text.toList) :=
    fun c hc => not_congr (Utf8.mem_encode_ascii hc)
  have hpercent := hmem '%' (by decide)
  have hand := hmem '&' (by decide)
  have hplus := hmem '+' (by decide)
  have hsemi := hmem ';' (by decide)
  simp only [StandsInQuery, List.forall_mem_cons, List.not_mem_nil,
    false_implies, implies_true, and_true]
  exact and_congr hpercent (and_congr hand (and_congr hplus hsemi))

theorem queryPlain_iff {text : String} : QueryPlain text ↔
    queryEnd text.toList = text.toList ∧ StandsInQuery (Utf8.encode text) := by
  rw [queryEnd_eq_self_iff, standsInQuery_encode]
  constructor
  · intro h
    refine ⟨⟨fun c hc => ⟨?_, ?_⟩, h.last⟩, fun c hc => h.chars c ?_⟩
    · rintro rfl
      exact h.chars '#' (by simp) hc
    · intro htab
      rw [isTabOrNewline, decide_eq_true_iff] at htab
      refine h.chars c ?_ hc
      rcases htab with rfl | rfl | rfl <;> simp
    · simp only [List.mem_cons, List.not_mem_nil, or_false] at hc ⊢
      rcases hc with h | h | h | h <;> simp [h]
  · intro h
    obtain ⟨⟨hchars, hlast⟩, hstands⟩ := h
    refine ⟨fun c hc hmem => ?_, hlast⟩
    obtain ⟨hsharp, htab⟩ := hchars c hmem
    rw [isTabOrNewline, decide_eq_true_iff] at htab
    simp only [List.mem_cons, List.not_mem_nil, or_false] at hc
    rcases hc with h | h | h | h | h | h | h | h
    · exact hstands c (by simp [h]) hmem
    · exact hstands c (by simp [h]) hmem
    · exact hstands c (by simp [h]) hmem
    · exact hstands c (by simp [h]) hmem
    · exact hsharp h
    · exact htab (.inl h)
    · exact htab (.inr (.inl h))
    · exact htab (.inr (.inr h))

section
variable {c : ApiCall} {path : List Char} {key text : String}

/-- A call that ends in `key=text`. -/
structure EndsIn (c : ApiCall) (path : List Char) (key text : String) :
    Prop where
  url : (apiBase ++ c.path).toList =
    path ++ '?' :: ((key.toList ++ ['=']) ++ text.toList)
  pathChars : ∀ c ∈ path, IsPathChar c
  keyChars : ∀ c ∈ key.toList, IsPathChar c
  stands : StandsInQuery (Utf8.encode key)
  equals : '=' ∉ key.toList

theorem EndsIn.rawQuery (h : EndsIn c path key text) :
    c.rawQuery = urlQuery (Utf8.encode key ++ 0x3D ::
      (queryEnd text.toList).flatMap String.utf8EncodeChar) := by
  have hname : ∀ c ∈ key.toList ++ ['='], IsPathChar c := by
    intro c hc
    rcases List.mem_append.mp hc with hc | hc
    · exact h.keyChars c hc
    · rw [List.mem_singleton.mp hc]
      exact ⟨by decide, by decide, by decide⟩
  rw [rawQuery_eq h.url h.pathChars hname, Utf8.encode, String.toList_ofList,
    List.flatMap_append, List.flatMap_append, List.append_assoc]
  rfl

theorem EndsIn.equals_encode (h : EndsIn c path key text) :
    0x3D ∉ Utf8.encode key := by
  have hmem := Utf8.mem_encode_ascii (c := '=') (s := key) (by decide)
  exact fun hbyte => h.equals (hmem.mp hbyte)

/-- The text that was put into the query arrives if and only if it stands for
itself. -/
theorem EndsIn.queryGet_iff (h : EndsIn c path key text) :
    queryGet c.rawQuery (Utf8.encode key) = Utf8.encode text ↔
      QueryPlain text := by
  have hsub : ((queryEnd text.toList).flatMap String.utf8EncodeChar).Sublist
      (Utf8.encode text) := (queryEnd_sublist text.toList).flatMap _
  have hand : 0x26 ∉ Utf8.encode key := h.stands _ (by decide)
  have hread : ∀ q k, queryGet (urlQuery q) k = queryGet q k := by
    intro q k
    rw [queryGet, parseQuery_urlQuery]
    rfl
  rw [h.rawQuery, hread, queryPlain_iff]
  constructor
  · intro heq
    have hle := length_queryGet_raw hand h.equals_encode
      (w := (queryEnd text.toList).flatMap String.utf8EncodeChar)
    rw [heq] at hle
    have hsame := hsub.eq_of_length_le hle
    have hchars := congrArg (Utf8.decodeFrom none) hsame
    rw [Utf8.encode, Utf8.decodeFrom_encode, Utf8.decodeFrom_encode] at hchars
    rw [hsame, queryGet_raw_iff h.stands h.equals_encode] at heq
    exact ⟨hchars, heq⟩
  · intro hplain
    rw [hplain.1]
    exact (queryGet_raw_iff h.stands h.equals_encode).mpr hplain.2

end

/-! ## The paths -/

theorem ObjectName.plain {name : String} (h : ObjectName name) :
    Plain name ∧ name ≠ "" := by
  obtain ⟨hchars, hhead, _, hne⟩ := h
  refine ⟨⟨fun c hc hmem => ?_, ?_, ?_⟩, hne⟩
  · have hno : ∀ c ∈ special,
        ¬ (c.isLower ∨ c.isDigit ∨ c = '-' ∨ c = '.') := by
      simp only [special, List.forall_mem_cons]
      exact ⟨by decide, by decide, by decide, by decide, by simp⟩
    exact hno c hc (hchars c hmem)
  · rintro rfl
    exact absurd (hhead '.' rfl) (by decide)
  · rintro rfl
    exact absurd (hhead '.' rfl) (by decide)

theorem ObjectName.isPathChar {name : String} (h : ObjectName name) :
    ∀ c ∈ name.toList, IsPathChar c := by
  intro c hc
  have hplain := (ObjectName.plain h).1
  refine ⟨?_, ?_, ?_⟩
  · rcases h.1 c hc with hl | hd | rfl | rfl
    · have hlower : (c.val ≥ 'a'.val && c.val ≤ 'z'.val) = true := hl
      rw [Bool.and_eq_true, decide_eq_true_iff, decide_eq_true_iff] at hlower
      have hle : 97 ≤ c.toNat := hlower.1
      unfold IsVisible
      omega
    · have hdigit : (c.val ≥ '0'.val && c.val ≤ '9'.val) = true := hd
      rw [Bool.and_eq_true, decide_eq_true_iff, decide_eq_true_iff] at hdigit
      have hle : 48 ≤ c.toNat := hdigit.1
      unfold IsVisible
      omega
    · decide
    · decide
  · rintro rfl
    exact hplain.chars '?' (by simp [special]) hc
  · rintro rfl
    exact hplain.chars '#' (by simp [special]) hc

/-- Of a URL with a query, the path. -/
theorem urlPath_query {c : ApiCall} {path rest : List Char}
    (hurl : (apiBase ++ c.path).toList = path ++ '?' :: rest)
    (hpath : ∀ c ∈ path, IsPathChar c) : c.urlPath.toList = path := by
  have hkept : ∀ c ∈ path, decide (c ≠ '?' ∧ c ≠ '#') = true := fun c hc =>
    decide_eq_true (hpath c hc).2
  rw [ApiCall.urlPath, cut, String.toList_ofList, hurl,
    List.takeWhile_append_of_pos hkept, List.takeWhile_cons_of_neg (by decide),
    List.append_nil]

theorem urlPath_search {method path : String}
    (hpath : ∀ c ∈ (apiBase ++ path).toList, IsPathChar c)
    (params : List (String × Option String)) :
    (ApiCall.urlPath ⟨method, withSearch path params⟩).toList =
      (apiBase ++ path).toList := by
  by_cases hqs : asciiText (formString (searchParams params)) = ""
  · rw [ApiCall.urlPath, withSearch, if_pos hqs, toList_cut_eq_iff]
    exact ⟨fun h => (hpath _ h).2.1 rfl, fun h => (hpath _ h).2.2 rfl⟩
  · have hurl : (apiBase ++ withSearch path params).toList =
        (apiBase ++ path).toList ++ '?' ::
          (asciiText (formString (searchParams params))).toList := by
      rw [withSearch, if_neg hqs, ← String.append_assoc, ← String.append_assoc,
        String.toList_append, String.toList_append]
      simp only [List.append_assoc]
      rfl
    exact urlPath_query (c := ⟨method, withSearch path params⟩) hurl hpath

/-- A literal path. -/
theorem isPathChar_literal {text : String}
    (h : text.toList.all fun c => 0x20 < c.toNat && c != '?' && c != '#') :
    ∀ c ∈ text.toList, IsPathChar c := by
  intro c hc
  have hall := List.all_eq_true.mp h c hc
  simp only [Bool.and_eq_true, decide_eq_true_eq, bne_iff_ne] at hall
  exact ⟨hall.1.1, hall.1.2, hall.2⟩

section
variable [Apimachinery] [Bcrypt]

/-- A path of plain pieces gets to the route that takes them. -/
theorem serveMux_plain {segs : List String} (hne : segs ≠ [])
    (hplain : ∀ seg ∈ segs, Plain seg ∧ seg ≠ "") {url : URL}
    (hpath : url.escapedPath.toList = join (segs.map String.toList))
    {route : Route Handler} (hroute : route ∈ routes)
    {values : List (String × String)}
    (hmatch : matchSegments route.pattern segs = some values) :
    serveMux routes route.method url = .handler route.handler values := by
  have hback : (segs.map String.toList).map pathUnescape = segs := by
    rw [List.map_map]
    refine (List.map_congr_left fun seg hseg => ?_).trans (List.map_id segs)
    exact (hplain seg hseg).1.pathUnescape
  refine serveMux_of_mem routes_exclusive hroute (by simpa using hne) ?_ hpath
    (by rw [hback]; exact hmatch)
  intro seg hseg
  obtain ⟨text, htext, rfl⟩ := List.mem_map.mp hseg
  exact (hplain text htext).1.cleanSegment (hplain text htext).2

/-- The lists of the console: whatever is asked for is what the server is asked
for. -/
theorem searches_arrive :
    (∀ clusterId ns r, (flagsApi.list clusterId ns).Arrives r →
      serveMux routes r.method r.url = .handler FlagHandler.list [] ∧
      r.query "clusterId" = clusterId.getD "" ∧
      r.query "namespace" = ns.getD "") ∧
    ∀ resource action cluster r,
      (auditApi.list resource action cluster).Arrives r →
      serveMux routes r.method r.url = .handler listAudit [] ∧
      r.query "resource" = resource.getD "" ∧
      r.query "resourceId" = "" ∧
      r.query "action" = action.getD "" ∧
      r.query "cluster" = cluster.getD "" := by
  have hroute : ∀ (collection : String) (h : Handler) params r,
      Plain collection ∧ collection ≠ "" →
      (∀ c ∈ (apiBase ++ ("/" ++ collection)).toList, IsPathChar c) →
      ⟨"GET", api [.lit collection], h⟩ ∈ (routes : List (Route Handler)) →
      ApiCall.Arrives ⟨"GET", withSearch ("/" ++ collection) params⟩ r →
      serveMux routes r.method r.url = .handler h [] := by
    intro collection h params r hcoll hchars hmem harrives
    have hpath : r.url.escapedPath.toList =
        join (["api", "v1", collection].map String.toList) := by
      rw [harrives.path, urlPath_search hchars]
      simp [join, apiBase, List.intercalate_cons_cons]
    have hmethod : r.method = "GET" := harrives.method
    rw [hmethod]
    refine serveMux_plain (by simp) ?_ hpath hmem ?_
    · simp only [List.forall_mem_cons]
      exact ⟨⟨by decide, by decide⟩, ⟨by decide, by decide⟩, hcoll, by simp⟩
    · simp [api, matchSegments]
  have hflags : ∀ c ∈ (apiBase ++ "/flags").toList, IsPathChar c :=
    isPathChar_literal (by decide)
  have haudit : ∀ c ∈ (apiBase ++ "/audit").toList, IsPathChar c :=
    isPathChar_literal (by decide)
  refine ⟨fun clusterId ns r harrives => ?_,
    fun resource action cluster r harrives => ?_⟩
  · have hquery := search_query hflags (by simp [flagsApi.listParams]) harrives
    refine ⟨hroute "flags" _ _ r ⟨by decide, by decide⟩ hflags
      (by simp [routes]) harrives, ?_, ?_⟩
    · rw [hquery]
      rfl
    · rw [hquery]
      rfl
  · have hquery := search_query haudit (by simp [auditApi.listParams]) harrives
    refine ⟨hroute "audit" _ _ r ⟨by decide, by decide⟩ haudit
      (by simp [routes]) harrives, ?_, ?_, ?_, ?_⟩
    · rw [hquery]
      rfl
    · rw [hquery]
      rfl
    · rw [hquery]
      rfl
    · rw [hquery]
      rfl

end

/-! One search, with an id that would not do as it is. -/

def searchRequest : Request where
  method := "GET"
  url := ⟨"/api/v1/flags", "/api/v1/flags", by decide +kernel⟩
  query := fun key => ((flagsApi.listParams (some "a&b") none).lookup
    key).join.getD ""

theorem searchRequest_arrives :
    (flagsApi.list (some "a&b") none).Arrives searchRequest where
  method := rfl
  path := by decide +kernel
  query key := (search_get (isPathChar_literal (by decide))
    (by simp [flagsApi.listParams]) key).symm

theorem searches_arrive_sample :
    letI := labelSelectors
    letI := plainBcrypt
    searchRequest.query "clusterId" = "a&b" :=
  letI := labelSelectors
  letI := plainBcrypt
  (searches_arrive.1 (some "a&b") none searchRequest
    searchRequest_arrives).2.1

section
variable [Apimachinery] [Bcrypt]

/-- The calls on one flag, and the handlers they are for. -/
def flagCalls : List ((String → String → String → ApiCall) × Handler) := [
  (flagsApi.get, FlagHandler.get),
  (flagsApi.update, requireRole editorUp FlagHandler.update),
  (flagsApi.delete, requireRole adminOnly FlagHandler.delete),
  (flagsApi.toggle, requireRole editorUp FlagHandler.toggle)]

/-- How a call on one flag is put together, and the route it is for. -/
structure FlagCall (c : ApiCall) (h : Handler) (ns name id : String)
    (tail : List String) : Prop where
  url : (apiBase ++ c.path).toList =
    join ((["api", "v1", "flags", ns, name] ++ tail).map String.toList) ++
      '?' :: (("clusterId".toList ++ ['=']) ++ id.toList)
  route : ⟨c.method, api ([.lit "flags", .wild "namespace", .wild "name"] ++
    tail.map .lit), h⟩ ∈ (routes : List (Route Handler))
  tail : tail = [] ∨ tail = ["toggle"]

theorem flagCall_of_mem {p : (String → String → String → ApiCall) × Handler}
    (hp : p ∈ flagCalls) (ns name id : String) :
    ∃ tail, FlagCall (p.1 ns name id) p.2 ns name id tail := by
  simp only [flagCalls, List.mem_cons, List.not_mem_nil, or_false] at hp
  rcases hp with rfl | rfl | rfl | rfl
  · exact ⟨[], by
        simp [flagsApi.get, join, List.intercalate_cons_cons, apiBase],
      by simp [flagsApi.get, routes], .inl rfl⟩
  · exact ⟨[], by
        simp [flagsApi.update, join, List.intercalate_cons_cons, apiBase],
      by simp [flagsApi.update, routes], .inl rfl⟩
  · exact ⟨[], by
        simp [flagsApi.delete, join, List.intercalate_cons_cons, apiBase],
      by simp [flagsApi.delete, routes], .inl rfl⟩
  · exact ⟨["toggle"], by
        simp [flagsApi.toggle, join, List.intercalate_cons_cons, apiBase],
      by simp [flagsApi.toggle, routes], .inr rfl⟩

section
variable {c : ApiCall} {h : Handler} {ns name id : String} {tail : List String}

omit [Apimachinery] [Bcrypt] in
theorem segments_flagCall (hns : ObjectName ns) (hname : ObjectName name)
    (htail : tail = [] ∨ tail = ["toggle"]) :
    ∀ seg ∈ ["api", "v1", "flags", ns, name] ++ tail,
      (Plain seg ∧ seg ≠ "") ∧ ∀ c ∈ seg.toList, IsPathChar c := by
  have hliteral : ∀ text ∈ ["api", "v1", "flags", "toggle"],
      (Plain text ∧ text ≠ "") ∧ ∀ c ∈ text.toList, IsPathChar c := by
    simp only [List.forall_mem_cons]
    refine ⟨⟨⟨by decide, by decide⟩, isPathChar_literal (by decide)⟩,
      ⟨⟨by decide, by decide⟩, isPathChar_literal (by decide)⟩,
      ⟨⟨by decide, by decide⟩, isPathChar_literal (by decide)⟩,
      ⟨⟨by decide, by decide⟩, isPathChar_literal (by decide)⟩, by simp⟩
  intro seg hseg
  rw [List.mem_append] at hseg
  rcases hseg with hseg | hseg
  · simp only [List.mem_cons, List.not_mem_nil, or_false] at hseg
    rcases hseg with rfl | rfl | rfl | rfl | rfl
    · exact hliteral _ (by simp)
    · exact hliteral _ (by simp)
    · exact hliteral _ (by simp)
    · exact ⟨ObjectName.plain hns, ObjectName.isPathChar hns⟩
    · exact ⟨ObjectName.plain hname, ObjectName.isPathChar hname⟩
  · rcases htail with rfl | rfl
    · cases hseg
    · rw [List.mem_singleton.mp hseg]
      exact hliteral _ (by simp)

omit [Apimachinery] [Bcrypt] in
/-- What holds of the slash and in every piece holds in the path. -/
theorem forall_mem_join {P : Char → Prop} (hslash : P '/') {segs : List String}
    (h : ∀ seg ∈ segs, ∀ c ∈ seg.toList, P c) :
    ∀ c ∈ join (segs.map String.toList), P c := by
  have hpieces : ∀ c ∈ ['/'].intercalate (segs.map String.toList), P c := by
    induction segs with
    | nil => simp
    | cons seg segs ih =>
        obtain ⟨hseg, hsegs⟩ := List.forall_mem_cons.mp h
        rw [List.map_cons]
        by_cases hnil : segs = []
        · subst hnil
          rw [List.map_nil, List.intercalate_singleton]
          exact hseg
        · rw [List.intercalate_cons_of_ne_nil (by simpa using hnil)]
          intro c hc
          simp only [List.mem_append, List.mem_singleton] at hc
          rcases hc with (hc | rfl) | hc
          · exact hseg c hc
          · exact hslash
          · exact ih hsegs c hc
  intro c hc
  rcases List.mem_cons.mp hc with rfl | hc
  · exact hslash
  · exact hpieces c hc

theorem FlagCall.endsIn (hcall : FlagCall c h ns name id tail)
    (hns : ObjectName ns) (hname : ObjectName name) :
    EndsIn c (join ((["api", "v1", "flags", ns, name] ++ tail).map
      String.toList)) "clusterId" id where
  url := hcall.url
  pathChars := forall_mem_join ⟨by decide, by decide, by decide⟩
    fun seg hseg => (segments_flagCall hns hname hcall.tail seg hseg).2
  keyChars := isPathChar_literal (by decide)
  stands := by
    rw [standsInQuery_encode]
    simp
  equals := by decide

theorem FlagCall.routed (hcall : FlagCall c h ns name id tail)
    (hns : ObjectName ns) (hname : ObjectName name) {r : Request}
    (hmethod : r.method = c.method) (hurl : r.url.escapedPath = c.urlPath) :
    serveMux routes r.method r.url =
      .handler h [("namespace", ns), ("name", name)] := by
  have hends := hcall.endsIn hns hname
  have hpath : r.url.escapedPath.toList =
      join ((["api", "v1", "flags", ns, name] ++ tail).map String.toList) := by
    rw [hurl]
    exact urlPath_query hends.url hends.pathChars
  have hslash : ns ≠ "/" ∧ name ≠ "/" := by
    constructor
    · rintro rfl
      exact absurd hns (by decide)
    · rintro rfl
      exact absurd hname (by decide)
  rw [hmethod]
  refine serveMux_plain (by simp) (fun seg hseg =>
    (segments_flagCall hns hname hcall.tail seg hseg).1) hpath hcall.route ?_
  rcases hcall.tail with rfl | rfl
  · simp [api, matchSegments, hslash]
  · simp [api, matchSegments, hslash]

/-- A request that arrives when the id stands for itself. -/
theorem FlagCall.exists_arrives (hcall : FlagCall c h ns name id tail)
    (hns : ObjectName ns) (hname : ObjectName name) (hplain : QueryPlain id) :
    ∃ r, c.Arrives r := by
  have hends := hcall.endsIn hns hname
  obtain ⟨hsame, hstands⟩ := queryPlain_iff.mp hplain
  have hpath := urlPath_query hends.url hends.pathChars
  have hpercent : '%' ∉ c.urlPath.toList := by
    rw [hpath]
    intro hmem
    refine forall_mem_join (P := (· ≠ '%')) (by decide) ?_ _ hmem rfl
    intro seg hseg c hc heq
    have hplain := (segments_flagCall hns hname hcall.tail seg hseg).1.1
    exact hplain.chars '%' (by simp [special]) (heq ▸ hc)
  refine ⟨{ method := c.method
            url := ⟨c.urlPath, c.urlPath, unescape_plain hpercent⟩
            query := fun key => if key = "clusterId" then id else "" },
    rfl, rfl, fun key => ?_⟩
  have hparse := parseQuery_raw hends.stands hends.equals_encode hstands
  rw [hends.rawQuery, queryGet, parseQuery_urlQuery, hsame]
  show _ = ((parseQuery (_ ++ 0x3D :: Utf8.encode id)).lookup _).getD []
  rw [hparse, List.lookup_cons]
  by_cases hkey : key = "clusterId"
  · subst hkey
    simp
  · have hne : Utf8.encode key ≠ Utf8.encode "clusterId" :=
      fun h => hkey (Utf8.encode_inj.mp h)
    rw [beq_eq_false_iff_ne.mpr hne]
    simp [hkey, Utf8.encode]

end

/-- A call on one flag gets to its handler, with the flag that was meant. What
the handler reads for the cluster are the bytes of the id that was meant if and
only if the id stands for itself. -/
theorem flag_calls_arrive_iff {ns name : String} (hns : ObjectName ns)
    (hname : ObjectName name) (id : String) : ∀ p ∈ flagCalls,
      (∀ r : Request, r.method = (p.1 ns name id).method →
        r.url.escapedPath = (p.1 ns name id).urlPath →
        serveMux routes r.method r.url =
          .handler p.2 [("namespace", ns), ("name", name)]) ∧
      (queryGet (p.1 ns name id).rawQuery (Utf8.encode "clusterId") =
        Utf8.encode id ↔ QueryPlain id) ∧
      (QueryPlain id →
        ∃ r, (p.1 ns name id).Arrives r ∧ r.query "clusterId" = id) := by
  intro p hp
  obtain ⟨tail, hcall⟩ := flagCall_of_mem hp ns name id
  have hiff := (hcall.endsIn hns hname).queryGet_iff
  refine ⟨fun r hmethod hurl => hcall.routed hns hname hmethod hurl, hiff,
    fun hplain => ?_⟩
  obtain ⟨r, hr⟩ := hcall.exists_arrives hns hname hplain
  refine ⟨r, hr, ?_⟩
  rw [← Utf8.encode_inj, hr.query]
  exact hiff.mpr hplain

end

theorem queryPlain_eu : QueryPlain "eu" where
  chars := by simp
  last := by
    intro c hc
    cases hc
    decide

theorem flag_calls_arrive_iff_sample :
    letI := labelSelectors
    letI := plainBcrypt
    ∃ r, (flagsApi.toggle "default" "dark-mode" "eu").Arrives r ∧
      serveMux routes r.method r.url =
        .handler (requireRole editorUp FlagHandler.toggle)
          [("namespace", "default"), ("name", "dark-mode")] ∧
      r.query "clusterId" = "eu" := by
  let := labelSelectors
  let := plainBcrypt
  have hns : ObjectName "default" := by decide
  have hname : ObjectName "dark-mode" := by decide
  obtain ⟨hall, _, hsome⟩ := flag_calls_arrive_iff hns hname "eu"
    (flagsApi.toggle, requireRole editorUp FlagHandler.toggle)
    (by simp [flagCalls])
  obtain ⟨r, hr, hid⟩ := hsome queryPlain_eu
  exact ⟨r, hr, hall r hr.method hr.path, hid⟩

/-! The switch of a flag on one cluster, sent to another. -/

example : queryGet (flagsApi.toggle "default" "dark-mode" "eu+west").rawQuery
    (Utf8.encode "clusterId") = Utf8.encode "eu west" := by decide +kernel

example : queryGet (flagsApi.toggle "default" "dark-mode" "eu&us").rawQuery
    (Utf8.encode "clusterId") = Utf8.encode "eu" := by decide +kernel

end Vexil.Web
