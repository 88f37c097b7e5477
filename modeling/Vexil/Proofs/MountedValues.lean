import Vexil.Proofs.MountedDirs

/-!
# Which value a file has

The same file has the same value in all four SDKs if and only if two things do
not happen to its text. (That it can be read, and that one may look for it, are
two conditions more.) There is no carriage return left inside, which Python
makes a line break. And from either end, the first character that is not white
space for everybody is not white space for anybody: next line, the mark of the
encoding and four separators of ASCII are for some.
-/

namespace Vexil.Sdk

open Vexil.Lib

/-- White space in every language. -/
def commonSpace (c : Char) : Bool := isSpace c ∧ c.toNat ≠ 0x85

/-- White space in some language only. -/
def oddSpace (c : Char) : Bool :=
  c.toNat = 0x85 ∨ c.toNat = 0xFEFF ∨ (0x1C ≤ c.toNat ∧ c.toNat ≤ 0x1F)

section
variable {c : Char}

theorem isSpace_of_common (h : commonSpace c = true) : isSpace c = true := by
  simp only [commonSpace, decide_eq_true_eq] at h
  exact h.1

theorem js_isSpace_of_common (h : commonSpace c = true) :
    Js.isSpace c = true := by
  simp only [commonSpace, isSpace, decide_eq_true_eq] at h
  simp only [Js.isSpace, decide_eq_true_eq]
  omega

theorem python_isSpace_of_common (h : commonSpace c = true) :
    Python.isSpace c = true := by
  simp only [Python.isSpace, decide_eq_true_eq]
  exact .inl (isSpace_of_common h)

/-- Whoever leaves what is not common leaves what is not odd. -/
theorem not_space_of_not_odd (hcommon : commonSpace c = false)
    (hodd : oddSpace c = false) :
    isSpace c = false ∧ Js.isSpace c = false ∧ Python.isSpace c = false := by
  simp only [commonSpace, oddSpace, isSpace, Js.isSpace, Python.isSpace,
    decide_eq_true_eq, decide_eq_false_iff_not] at *
  omega

/-- Somebody takes an odd character for white space, and somebody does not. -/
theorem odd_cases (h : oddSpace c = true) :
    isSpace c = true ∧ Js.isSpace c = false ∨
    isSpace c = false ∧ (Js.isSpace c = true ∨ Python.isSpace c = true) := by
  simp only [oddSpace, isSpace, Js.isSpace, Python.isSpace,
    decide_eq_true_eq, decide_eq_false_iff_not] at *
  omega

end

/-! ## Line breaks -/

section
variable {l : List Char}

theorem return_not_mem_newlines (b : Bool) (l : List Char) :
    '\r' ∉ Python.newlines b l := by
  induction l generalizing b with
  | nil => simp [Python.newlines]
  | cons c cs ih =>
      rw [Python.newlines]
      split
      · simp [ih]
      · split
        · exact ih false
        · next hc _ => simp [ih, Ne.symm hc]

theorem newlines_eq_self (h : '\r' ∉ l) : Python.newlines false l = l := by
  induction l with
  | nil => rfl
  | cons c cs ih =>
      rw [List.mem_cons, not_or] at h
      rw [Python.newlines, if_neg (Ne.symm h.1), if_neg (by simp), ih h.2]

theorem dropWhile_newlines (b : Bool) (l : List Char) :
    (Python.newlines b l).dropWhile Python.isSpace =
      Python.newlines false (l.dropWhile Python.isSpace) := by
  induction l generalizing b with
  | nil => rfl
  | cons c cs ih =>
      rw [Python.newlines]
      split
      · next hc =>
          subst hc
          rw [List.dropWhile_cons_of_pos (by decide),
            List.dropWhile_cons_of_pos (by decide), ih]
      · split
        · next hc =>
            rw [hc.1, List.dropWhile_cons_of_pos (by decide), ih]
        · next hc _ =>
            by_cases hspace : Python.isSpace c
            · rw [List.dropWhile_cons_of_pos hspace,
                List.dropWhile_cons_of_pos hspace, ih]
            · rw [List.dropWhile_cons_of_neg hspace,
                List.dropWhile_cons_of_neg hspace, Python.newlines, if_neg hc,
                if_neg (by simp)]

/-- What one more character adds. -/
theorem newlines_concat (b : Bool) (l : List Char) (c : Char) :
    ∃ added, Python.newlines b (l ++ [c]) = Python.newlines b l ++ added ∧
      if Python.isSpace c then ∀ a ∈ added, Python.isSpace a = true
      else added = [c] := by
  induction l generalizing b with
  | nil =>
      refine ⟨Python.newlines b [c], rfl, ?_⟩
      have hreturn : Python.isSpace '\r' = true := by decide
      have hfeed : Python.isSpace '\n' = true := by decide
      rw [Python.newlines, Python.newlines]
      split
      · next hspace =>
          split
          · simpa using hfeed
          · split
            · simp [Python.newlines]
            · simpa [Python.newlines] using hspace
      · next hspace =>
          have hc : c ≠ '\r' := by
            rintro rfl
            exact hspace hreturn
          have hc' : ¬ (c = '\n' ∧ b = true) := by
            rintro ⟨rfl, _⟩
            exact hspace hfeed
          rw [if_neg hc, if_neg hc', Python.newlines]
  | cons d l ih =>
      rw [List.cons_append, Python.newlines, Python.newlines]
      split
      · obtain ⟨added, heq, h⟩ := ih true
        exact ⟨added, by rw [heq]; rfl, h⟩
      · split
        · exact ih false
        · obtain ⟨added, heq, h⟩ := ih false
          exact ⟨added, by rw [heq]; rfl, h⟩

theorem rdropWhile_newlines (b : Bool) (l : List Char) :
    (Python.newlines b l).rdropWhile Python.isSpace =
      Python.newlines b (l.rdropWhile Python.isSpace) := by
  induction l using List.reverseRecOn with
  | nil => rfl
  | append_singleton l c ih =>
      obtain ⟨added, heq, h⟩ := newlines_concat b l c
      by_cases hspace : Python.isSpace c
      · rw [if_pos hspace] at h
        rw [heq, List.rdropWhile_concat_pos _ _ _ hspace, ← ih, List.rdropWhile,
          List.reverse_append, List.dropWhile_append_of_pos]
        · rfl
        · exact fun a ha => h a (List.mem_reverse.mp ha)
      · rw [if_neg hspace] at h
        rw [heq, List.rdropWhile_concat_neg _ _ _ hspace, heq, h,
          List.rdropWhile_concat_neg _ _ _ hspace]

theorem trimBy_newlines (l : List Char) :
    trimBy Python.isSpace (Python.newlines false l) =
      Python.newlines false (trimBy Python.isSpace l) := by
  rw [trimBy, dropWhile_newlines, rdropWhile_newlines, trimBy]

end

/-! ## The four values -/

/-- A text of which all SDKs make the same value. -/
structure SameText (data : String) : Prop where
  noReturn : '\r' ∉ (trimSpace data).toList
  left : ∀ c, (data.toList.dropWhile commonSpace).head? = some c →
    oddSpace c = false
  right : ∀ c, (data.toList.rdropWhile commonSpace).getLast? = some c →
    oddSpace c = false

/-- The values that the SDKs make of a text. -/
def valuesOf (data : String) : List String :=
  [Go.valueOf data, Node.valueOf data, Python.valueOf data,
    Dotnet.valueOf data]

section
variable {data : String}

theorem go_valueOf (data : String) :
    (Go.valueOf data).toList = trimBy isSpace data.toList :=
  String.toList_ofList

theorem node_valueOf (data : String) :
    (Node.valueOf data).toList = trimBy Js.isSpace data.toList :=
  Js.toList_trim data

theorem python_valueOf (data : String) :
    (Python.valueOf data).toList =
      Python.newlines false (trimBy Python.isSpace data.toList) := by
  rw [Python.valueOf, String.toList_ofList, trimBy_newlines]

theorem dotnet_valueOf (data : String) :
    (Dotnet.valueOf data).toList =
      trimBy isSpace (Dotnet.dropMark data.toList) := String.toList_ofList

/-- A text with white space for everybody around it only. -/
theorem SameText.trims (h : SameText data) :
    trimBy isSpace data.toList = trimBy commonSpace data.toList ∧
    trimBy Js.isSpace data.toList = trimBy commonSpace data.toList ∧
    trimBy Python.isSpace data.toList = trimBy commonSpace data.toList := by
  have hl : ∀ c, (data.toList.dropWhile commonSpace).head? = some c →
      isSpace c = false ∧ Js.isSpace c = false ∧ Python.isSpace c = false :=
    fun c hc => not_space_of_not_odd (of_head_dropWhile hc) (h.left c hc)
  have hr : ∀ c, (data.toList.rdropWhile commonSpace).getLast? = some c →
      isSpace c = false ∧ Js.isSpace c = false ∧ Python.isSpace c = false :=
    fun c hc => not_space_of_not_odd (of_getLast_rdropWhile hc) (h.right c hc)
  refine ⟨?_, ?_, ?_⟩
  · exact trimBy_congr (fun _ => isSpace_of_common)
      (fun c hc => (hl c hc).1) fun c hc => (hr c hc).1
  · exact trimBy_congr (fun _ => js_isSpace_of_common)
      (fun c hc => (hl c hc).2.1) fun c hc => (hr c hc).2.1
  · exact trimBy_congr (fun _ => python_isSpace_of_common)
      (fun c hc => (hl c hc).2.2) fun c hc => (hr c hc).2.2

/-- It does not begin with a mark. -/
theorem SameText.dropMark (h : SameText data) :
    Dotnet.dropMark data.toList = data.toList := by
  have hleft := h.left
  cases hdata : data.toList with
  | nil => rfl
  | cons c cs =>
      rw [hdata] at hleft
      refine if_neg fun hc => ?_
      have hcommon : ¬ commonSpace c = true := by
        simp [commonSpace, isSpace, hc]
      rw [List.dropWhile_cons_of_neg hcommon] at hleft
      have hodd := hleft c rfl
      simp [oddSpace, hc] at hodd

theorem SameText.values (h : SameText data) :
    ∀ v ∈ valuesOf data, v = Go.valueOf data := by
  obtain ⟨hgo, hnode, hpython⟩ := h.trims
  have hline : '\r' ∉ trimBy isSpace data.toList := by
    rw [← go_valueOf]
    exact h.noReturn
  simp only [valuesOf, List.forall_mem_cons, true_and, ← String.toList_inj,
    go_valueOf, node_valueOf, python_valueOf, dotnet_valueOf]
  refine ⟨?_, ?_, ?_, fun _ hv => absurd hv List.not_mem_nil⟩
  · rw [hnode, hgo]
  · rw [hpython, ← hgo, newlines_eq_self hline]
  · rw [h.dropMark]

/-- Where the values agree, neither end stops at an odd character. -/
theorem not_odd_of_values {c : Char} {end? : List Char → Option Char}
    (hend : ∀ p l, end? (trimBy p l) = some c → p c = false)
    (hstop : ∀ p : Char → Bool, (∀ a, commonSpace a = true → p a = true) →
      p c = false → end? (trimBy p data.toList) = some c)
    (h : ∀ v ∈ valuesOf data, v = Go.valueOf data) : oddSpace c = false := by
  have hnode : trimBy Js.isSpace data.toList = trimBy isSpace data.toList := by
    rw [← node_valueOf, ← go_valueOf,
      h (Node.valueOf data) (by simp [valuesOf])]
  have hpython : trimBy Python.isSpace (Python.newlines false data.toList) =
      trimBy isSpace data.toList := by
    rw [← go_valueOf, ← h (Python.valueOf data) (by simp [valuesOf]),
      Python.valueOf, String.toList_ofList]
  by_contra hodd
  obtain ⟨hspace, hjs⟩ | ⟨hspace, hother⟩ :=
    odd_cases (Bool.not_eq_false _ ▸ hodd)
  · -- Node stops there, and Go never leaves it
    have hleft := hstop Js.isSpace (fun _ => js_isSpace_of_common) hjs
    rw [hnode] at hleft
    rw [hend isSpace _ hleft] at hspace
    cases hspace
  · -- Go stops there, and one of the others never leaves it
    have hleft := hstop isSpace (fun _ => isSpace_of_common) hspace
    obtain hjs | hpy := hother
    · rw [← hnode] at hleft
      rw [hend Js.isSpace _ hleft] at hjs
      cases hjs
    · rw [← hpython] at hleft
      rw [hend Python.isSpace _ hleft] at hpy
      cases hpy

/-- All values are the same if and only if the text is one for everybody. -/
theorem values_iff : (∃ v, ∀ v' ∈ valuesOf data, v' = v) ↔ SameText data := by
  constructor
  · rintro ⟨v, hv⟩
    have h : ∀ v' ∈ valuesOf data, v' = Go.valueOf data := fun v' hv' =>
      (hv v' hv').trans (hv _ List.mem_cons_self).symm
    refine ⟨?_, fun c hc => ?_, fun c hc => ?_⟩
    · show '\r' ∉ (Go.valueOf data).toList
      rw [← h (Python.valueOf data) (by simp [valuesOf]), python_valueOf]
      exact return_not_mem_newlines _ _
    · exact not_odd_of_values (fun p l => of_head_trimBy)
        (fun p hp hc' => head_trimBy hp hc hc') h
    · exact not_odd_of_values (fun p l => of_getLast_trimBy)
        (fun p hp hc' => getLast_trimBy hp hc hc') h
  · exact fun h => ⟨_, h.values⟩

end

/-! ## The lookups -/

section
variable {N : Type} {m : MountedFiles N} {ds : List (List Char)} {name : String}

/-- The path of a plain name. -/
def plainPath (ds : List (List Char)) (name : String) : List Char :=
  join (ds ++ names (name.toList.splitOn '/'))

/-- The file of a plain name. -/
def fileOf (fs : Files N String) (ds : List (List Char)) (name : String) :
    Option (Option String) :=
  fs.fileAt (fs.descend fs.root (ds ++ names (name.toList.splitOn '/')))

theorem lookups_plain (hne : ds ≠ []) (hds : ∀ seg ∈ ds, CleanSegment seg)
    (hname : PlainName name.toList) :
    mountedLookups m (String.ofList (join ds)) name =
      if m.denied (plainPath ds name) then [.returns none, .returns none,
        if m.isFileRaises then .lost else .returns none, .returns none]
      else
        match fileOf m.files ds name with
        | none => List.replicate 4 (.returns none)
        | some none => [.returns none, .returns none, .lost, .lost]
        | some (some data) => (valuesOf data).map fun v =>
            .returns (some (textFlag name v)) := by
  obtain ⟨hgo, hnode, hpython, hdotnet⟩ := filePath_plain hne hds hname
  have hfetches := fetches_plain hne hds m.files hname
  simp only [fetches, List.forall_mem_cons] at hfetches
  obtain ⟨hgo', hnode', hpython', hdotnet', _⟩ := hfetches
  unfold mountedLookups Go.mountedGetFlag Node.mountedGetFlag
    Python.mountedGetFlag Dotnet.mountedGetFlag MountedFiles.found plainPath
    fileOf
  rw [String.toList_ofList, hgo, hnode, hpython, hdotnet, hgo', hnode',
    hpython', hdotnet', hname.target]
  by_cases hdenied : m.denied (join (ds ++ names (name.toList.splitOn '/')))
  · by_cases hraises : m.isFileRaises
    · simp [hdenied, hraises]
    · simp [hdenied, hraises]
  · simp only [hdenied]
    cases m.files.fileAt (m.files.descend m.files.root
        (ds ++ names (name.toList.splitOn '/'))) with
    | none => rfl
    | some data? =>
        cases data? with
        | none => rfl
        | some data => rfl

theorem forall_map_eq_iff {α β : Type} {f : α → β} (hf : f.Injective)
    {l : List α} (hne : l ≠ []) :
    (∃ b, ∀ b' ∈ l.map f, b' = b) ↔ ∃ a, ∀ a' ∈ l, a' = a := by
  constructor
  · rintro ⟨b, hb⟩
    obtain ⟨a, l', rfl⟩ := List.exists_cons_of_ne_nil hne
    refine ⟨a, fun a' ha' => hf ?_⟩
    rw [hb _ (List.mem_map_of_mem ha'),
      hb _ (List.mem_map_of_mem List.mem_cons_self)]
  · rintro ⟨a, ha⟩
    refine ⟨f a, fun b' hb' => ?_⟩
    obtain ⟨a', ha', rfl⟩ := List.mem_map.mp hb'
    rw [ha a' ha']

/-- The name of an entry is plain. -/
theorem plainName_of_clean {seg : List Char} (h : CleanSegment seg) :
    PlainName seg := by
  refine ⟨fun hhead => h.slash (List.mem_of_mem_head? hhead),
    fun hlast => h.slash (List.mem_of_getLast? hlast), ?_⟩
  rw [List.splitOn_eq_singleton h.slash, List.mem_singleton]
  exact Ne.symm h.dots

theorem fileOf_clean {fs : Files N String} {n : N}
    (hmount : fs.descend fs.root ds = some n)
    (hname : CleanSegment name.toList) :
    fileOf fs ds name = fs.fileAt (fs.child n name.toList) := by
  have hnames : names [name.toList] = [name.toList] :=
    List.filter_cons_of_pos (by simp [hname.nonempty, hname.dot])
  rw [fileOf, List.splitOn_eq_singleton hname.slash, hnames,
    Files.descend_append, hmount]
  show fs.fileAt ((fs.child n name.toList).bind some) = _
  rw [Option.bind_fun_some]

/-- For the name of an entry this is the lookup that the list call was compared
with. -/
theorem go_mountedGetFlag_eq {n : N} {entries : GoMap DirEntry}
    (hne : ds ≠ []) (hds : ∀ seg ∈ ds, CleanSegment seg)
    (hmount : m.files.descend m.files.root ds = some n)
    (hname : CleanSegment name.toList)
    (hopen : m.denied (Go.filePath (join ds) name.toList) = false)
    (hentry : entries.lookup name =
      (m.files.child n name.toList).map fun k =>
        match m.files.kind k with
        | .dir => .dir
        | .file data => .file data) :
    Go.mountedGetFlag m (String.ofList (join ds)) name =
      .returns (mountGetFlag (.dir entries) name).toOption := by
  have hfetch := fetches_plain hne hds m.files (plainName_of_clean hname) _
    List.mem_cons_self
  have hgo : Go.fetch m.files (join ds) name.toList =
      m.files.fileAt (m.files.child n name.toList) := by
    rw [hfetch]
    exact fileOf_clean hmount hname
  rw [Go.mountedGetFlag, String.toList_ofList, MountedFiles.found, hopen, hgo,
    mountGetFlag, hentry]
  cases m.files.child n name.toList with
  | none => rfl
  | some k =>
      rw [Option.map_some, Files.fileAt]
      cases m.files.kind k with
      | dir => rfl
      | file data =>
          cases data with
          | none => rfl
          | some data => rfl

end

/-! A value with a line break after it, and one between next lines. -/

def themePath : List (List Char) := mountPath ++ ["theme".toList]

theorem sameText_sample : SameText "dark\n" where
  noReturn := by decide
  left c hc := by
    have hhead : ("dark\n".toList.dropWhile commonSpace).head? = some 'd' := by
      decide
    rw [hhead] at hc
    obtain rfl := Option.some.inj hc
    decide
  right c hc := by
    have hlast : ("dark\n".toList.rdropWhile commonSpace).getLast? =
        some 'k' := by decide
    rw [hlast] at hc
    obtain rfl := Option.some.inj hc
    decide

theorem not_sameText_sample : ¬ SameText "\u0085dark" := by
  intro h
  have hodd := h.left (Char.ofNat 0x85) (by decide)
  exact absurd hodd (by decide)

/-- One file, at the path of the theme. -/
def themeMount (data : String) (denied : Bool) : MountedFiles Place where
  files := onlyFile mountPath data (l := themePath) (by decide)
  denied _ := denied
  isFileRaises := true

end Vexil.Sdk
