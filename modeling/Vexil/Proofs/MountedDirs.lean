import Vexil.Sdk.MountedDir

/-!
# Which file a name leads to

The four SDKs put the name of a flag behind a path in four ways. For a name that
is relative, has no two dots among its pieces and no slash at its end, it is the
same file in all of them, below the directory. For every other name, unless Go
is led back to the directory itself or above it where no flag can be, there is a
file system in which they part.
-/

namespace Vexil.Sdk

open Vexil.Lib

/-- The pieces that dots taken out of the name leave. -/
def target (ds : List (List Char)) (name : List Char) : List (List Char) :=
  ((name.splitOn '/').foldl cleanPush ds.reverse).reverse

/-- A name that all SDKs understand in the same way. -/
structure PlainName (name : List Char) : Prop where
  relative : name.head? ≠ some '/'
  ended : name.getLast? ≠ some '/'
  noDots : ['.', '.'] ∉ name.splitOn '/'

instance (name : List Char) : Decidable (PlainName name) :=
  decidable_of_iff (name.head? ≠ some '/' ∧ name.getLast? ≠ some '/' ∧
    ['.', '.'] ∉ name.splitOn '/')
    ⟨fun ⟨a, b, c⟩ => ⟨a, b, c⟩, fun ⟨a, b, c⟩ => ⟨a, b, c⟩⟩

/-! ## Paths -/

section
variable {ds : List (List Char)} (hne : ds ≠ [])
  (hds : ∀ seg ∈ ds, CleanSegment seg) {name : List Char}

theorem target_nil : target ds [] = ds := by
  simp [target, List.splitOn_nil, cleanPush]

include hds in
theorem cleanSegment_target : ∀ seg ∈ target ds name, CleanSegment seg := by
  intro seg hseg
  have hdone : ∀ seg ∈ ds.reverse, CleanSegment seg :=
    fun seg h => hds seg (List.mem_reverse.mp h)
  exact cleanSegment_foldl hdone (fun seg h => (of_mem_splitOn seg h).1) seg
    (List.mem_reverse.mp hseg)

include hne hds in
theorem cleaned_join : cleaned (join ds) = ds := by
  rw [cleaned, splitOn_join hne fun seg hseg => (hds seg hseg).slash,
    List.foldl_cons]
  show (ds.foldl cleanPush []).reverse = ds
  rw [foldl_cleanPush hds, List.append_nil, List.reverse_reverse]

include hne hds in
/-- What Go, Node and, for a relative name, .NET clean. -/
theorem cleaned_arg : cleaned (if name = [] then join ds
    else below (join ds) name) = target ds name := by
  split
  · next hname => rw [hname, cleaned_join hne hds, target_nil]
  · exact cleaned_below hne hds name

include hne hds in
theorem go_filePath : Go.filePath (join ds) name = join (target ds name) := by
  rw [Go.filePath, clean, cleaned_arg hne hds]

theorem getLast?_join (hne : ds ≠ []) (hds : ∀ seg ∈ ds, CleanSegment seg) :
    (join ds).getLast? ≠ some '/' := by
  obtain ⟨c, hc, hslash⟩ := getLast?_intercalate hne hds
  rw [join, List.getLast?_cons, hc]
  simpa using hslash

theorem head?_arg (name : List Char) : (if name = [] then join ds
    else below (join ds) name).head? = some '/' := by
  split
  · rfl
  · rfl

include hne hds in
theorem getLast?_arg : (if name = [] then join ds
    else below (join ds) name).getLast? = some '/' ↔
      name.getLast? = some '/' := by
  split
  · next hname => simp [hname, getLast?_join hne hds]
  · next hname =>
      rw [below, List.getLast?_append, List.getLast?_cons]
      cases hl : name.getLast? with
      | none => exact absurd (List.getLast?_eq_none_iff.mp hl) hname
      | some c => simp

include hne hds in
theorem node_filePath : Node.filePath (join ds) name =
    if name.getLast? = some '/' ∧ target ds name ≠ [] then
      join (target ds name) ++ ['/']
    else join (target ds name) := by
  rw [Node.filePath, cleanPath_eq (head?_arg name), clean,
    cleaned_arg hne hds]
  simp only [getLast?_arg hne hds]

include hne hds in
theorem python_filePath (hrel : name.head? ≠ some '/') :
    Python.filePath (join ds) name =
      join (ds ++ names (name.splitOn '/')) := by
  have hkeep : names ds = ds := by
    refine List.filter_eq_self.mpr fun seg hseg => ?_
    have h := hds seg hseg
    simp [h.nonempty, h.dot]
  rw [Python.filePath, if_neg hrel, below, splitOn_below hne hds]
  have hcons : names ([] :: (ds ++ name.splitOn '/')) =
      names (ds ++ name.splitOn '/') := List.filter_cons_of_neg (by simp)
  rw [hcons, names, List.filter_append]
  congr 2

theorem dotnet_filePath (dir : List Char) (hrel : name.head? ≠ some '/') :
    Dotnet.filePath dir name = Node.filePath dir name := by
  rw [Dotnet.filePath, Node.filePath, if_neg hrel]

include hne hds in
theorem go_fetch {N : Type} (fs : Files N String) :
    Go.fetch fs (join ds) name =
      fs.fileAt (fs.descend fs.root (target ds name)) := by
  rw [Go.fetch, go_filePath hne hds, Files.file?_join (cleanSegment_target hds)]

theorem PlainName.target (h : PlainName name) :
    target ds name = ds ++ names (name.splitOn '/') := by
  rw [Sdk.target, foldl_cleanPush_names h.noDots, List.reverse_append,
    List.reverse_reverse, List.reverse_reverse]

include hne hds in
/-- A plain name is below the directory for all of them. -/
theorem filePath_plain (h : PlainName name) :
    Go.filePath (join ds) name = join (target ds name) ∧
    Node.filePath (join ds) name = join (target ds name) ∧
    Python.filePath (join ds) name = join (target ds name) ∧
    Dotnet.filePath (join ds) name = join (target ds name) := by
  have hnode : Node.filePath (join ds) name = join (target ds name) := by
    rw [node_filePath hne hds, if_neg fun hslash => h.ended hslash.1]
  refine ⟨go_filePath hne hds, hnode, ?_, ?_⟩
  · rw [python_filePath hne hds h.relative, h.target]
  · rw [dotnet_filePath _ h.relative, hnode]

include hne hds in
theorem fetches_plain {N : Type} (fs : Files N String) (h : PlainName name) :
    ∀ r ∈ fetches fs (join ds) name, r = fs.fileAt
      (fs.descend fs.root (ds ++ names (name.splitOn '/'))) := by
  obtain ⟨hgo, hnode, hpython, hdotnet⟩ := filePath_plain hne hds h
  have hclean : ∀ seg ∈ target ds name, CleanSegment seg :=
    cleanSegment_target hds
  have htarget : target ds name ≠ [] := by
    rw [h.target]
    exact fun happ => hne (List.append_eq_nil_iff.mp happ).1
  have hfile : fs.file? (join (target ds name)) = fs.fileAt
      (fs.descend fs.root (ds ++ names (name.splitOn '/'))) := by
    rw [Files.file?_join hclean, h.target]
  unfold fetches Go.fetch Node.fetch Python.fetch Dotnet.fetch
  dsimp only
  rw [hgo, hnode, hpython, hdotnet, if_neg (getLast?_join htarget hclean),
    hfile]
  simp

end

/-! ## A file system with one file

The file is at the end of `l`, and what else there is are the directories on the
way to it and to `ds`. Every parent is a place with nothing in it, as if each
directory were a link. -/

/-- A place by its path, or where all parents are. -/
abbrev Place := Option (List (List Char))

section
variable (l ds : List (List Char)) (data : String)

def onlyKind : Place → FileKind String
  | none => .dir
  | some p => if p = l then .file (some data) else .dir

def onlyChild : Place → List Char → Option Place
  | none, _ => none
  | some p, seg =>
      if p ≠ l ∧ (p ++ [seg] <+: l ∨ p ++ [seg] <+: ds) then
        some (some (p ++ [seg]))
      else none

variable {l}

def onlyFile (hl : l ≠ []) : Files Place String where
  root := some []
  kind := onlyKind l data
  child := onlyChild l ds
  parent _ := none
  kind_root := if_neg (Ne.symm hl)
  kind_parent _ := rfl
  kind_of_child := by
    intro n seg m h
    cases n with
    | none => rfl
    | some p =>
        simp only [onlyChild] at h
        split at h
        · next hp => exact if_neg hp.1
        · cases h

variable {ds data}

/-- On the way to `l`, or on the way to `ds` and not beyond `l`. -/
def OnTheWay (l ds p : List (List Char)) : Prop :=
  p <+: l ∨ ¬ l <+: p ∧ p <+: ds

theorem onlyChild_of_onTheWay {p segs : List (List Char)} {seg : List Char}
    (h : OnTheWay l ds (p ++ seg :: segs)) :
    onlyChild l ds (some p) seg = some (some (p ++ [seg])) := by
  have hshort : p ++ [seg] <+: p ++ seg :: segs := ⟨segs, by simp⟩
  refine if_pos ⟨?_, ?_⟩
  · rintro rfl
    obtain hl | ⟨hl, _⟩ := h
    · have hlen := hl.length_le
      simp at hlen
    · exact hl (List.prefix_append p _)
  · exact h.imp hshort.trans fun h => hshort.trans h.2

/-- What is on the way is there. -/
theorem descend_onlyFile (hl : l ≠ []) {p segs : List (List Char)}
    (h : OnTheWay l ds (p ++ segs)) :
    (onlyFile ds data hl).descend (some p) segs = some (some (p ++ segs)) := by
  induction segs generalizing p with
  | nil => simp [Files.descend]
  | cons seg segs ih =>
      have hnext : OnTheWay l ds (p ++ [seg] ++ segs) := by
        rwa [List.append_assoc]
      have hchild : (onlyFile ds data hl).child (some p) seg =
          some (some (p ++ [seg])) := onlyChild_of_onTheWay h
      rw [Files.descend, List.foldlM_cons, hchild]
      show (onlyFile ds data hl).descend (some (p ++ [seg])) segs = _
      rw [ih hnext, List.append_assoc]
      rfl

/-- The file is found. -/
theorem fileAt_descend (hl : l ≠ []) :
    (onlyFile ds data hl).fileAt ((onlyFile ds data hl).descend (some []) l) =
      some (some data) := by
  have hkind : (onlyFile ds data hl).kind (some l) = .file (some data) :=
    if_pos rfl
  rw [descend_onlyFile hl (.inl List.prefix_rfl)]
  simp [Files.fileAt, hkind]

/-- What is looked up is the place of that path. -/
theorem path_of_descend (hl : l ≠ []) {p segs : List (List Char)} {n : Place}
    (h : (onlyFile ds data hl).descend (some p) segs = some n) :
    n = some (p ++ segs) := by
  induction segs generalizing p with
  | nil =>
      obtain rfl := Option.some.inj h
      simp
  | cons seg segs ih =>
      rw [Files.descend, List.foldlM_cons] at h
      obtain ⟨m, hm, hrest⟩ := Option.bind_eq_some_iff.mp h
      have hm : onlyChild l ds (some p) seg = some m := hm
      simp only [onlyChild] at hm
      split at hm
      · obtain rfl := Option.some.inj hm
        rw [ih hrest, List.append_assoc]
        rfl
      · cases hm

/-- A walk from a place goes to the place of that path, or to where all parents
are, or nowhere. -/
theorem walk_onlyFile (hl : l ≠ []) (segs : List (List Char)) :
    (∀ p n, (onlyFile ds data hl).walk (some p) segs = some (some n) →
      n = p ++ names segs ∧ ['.', '.'] ∉ segs) ∧
    ∀ n, (onlyFile ds data hl).walk none segs ≠ some (some n) := by
  induction segs with
  | nil => simp [Files.walk, names]
  | cons seg segs ih =>
      obtain ⟨ihsome, ihnone⟩ := ih
      constructor
      · intro p n h
        rw [Files.walk] at h
        split at h
        · cases h
        · split at h
          · next hseg =>
              obtain ⟨rfl, hdots⟩ := ihsome p n h
              have hnames : names (seg :: segs) = names segs :=
                List.filter_cons_of_neg (by simp [hseg])
              refine ⟨by rw [hnames], ?_⟩
              rw [List.mem_cons, not_or]
              refine ⟨?_, hdots⟩
              rintro rfl
              simp at hseg
          · split at h
            · exact absurd h (ihnone n)
            · next hseg hdots =>
                obtain ⟨m, hm, hrest⟩ := Option.bind_eq_some_iff.mp h
                have hm : onlyChild l ds (some p) seg = some m := hm
                simp only [onlyChild] at hm
                split at hm
                · obtain rfl := Option.some.inj hm
                  obtain ⟨rfl, hnone⟩ := ihsome _ n hrest
                  have hnames : names (seg :: segs) = seg :: names segs :=
                    List.filter_cons_of_pos (by simpa using hseg)
                  rw [hnames, List.append_assoc, List.mem_cons, not_or]
                  exact ⟨rfl, Ne.symm hdots, hnone⟩
                · cases hm
      · intro n h
        rw [Files.walk] at h
        split at h
        · cases h
        · split at h
          · exact ihnone n h
          · split at h
            · exact ihnone n h
            · cases h

/-- Only a walk to `l` finds a file. -/
theorem fileAt_onlyFile (hl : l ≠ []) {n : Option Place}
    (h : (onlyFile ds data hl).fileAt n ≠ none) : n = some (some l) := by
  cases n with
  | none => exact absurd rfl h
  | some n =>
      cases n with
      | none => exact absurd rfl h
      | some p =>
          by_cases hp : p = l
          · rw [hp]
          · refine absurd ?_ h
            have hkind : (onlyFile ds data hl).kind (some p) = .dir := if_neg hp
            simp [Files.fileAt, hkind]

end

/-! ## Where they part -/

section
variable {ds : List (List Char)} {name : List Char}

/-- The directory of the provider is there. -/
def Mounted {N : Type} (fs : Files N String) (ds : List (List Char)) : Prop :=
  ∃ n, fs.descend fs.root ds = some n ∧ fs.kind n = .dir

theorem mounted_onlyFile {l : List (List Char)} {data : String} (hl : l ≠ [])
    (hbelow : ¬ l <+: ds) : Mounted (onlyFile ds data hl) ds := by
  have hds : ds ≠ l := by
    rintro rfl
    exact hbelow List.prefix_rfl
  exact ⟨some ds, descend_onlyFile hl (.inr ⟨hbelow, List.prefix_rfl⟩),
    if_neg hds⟩

/-- Python finds the file of a path without two dots only. -/
theorem names_of_resolve {l segs : List (List Char)} {data : String}
    (hl : l ≠ []) (hslash : ∀ seg ∈ segs, '/' ∉ seg)
    (h : (onlyFile ds data hl).file? (join segs) ≠ none) :
    l = names segs ∧ ['.', '.'] ∉ segs := by
  have hwalk := fileAt_onlyFile hl h
  rw [Files.resolve_join hslash] at hwalk
  exact (walk_onlyFile hl segs).1 [] l hwalk

theorem names_names (segs : List (List Char)) :
    names (names segs) = names segs :=
  List.filter_filter.trans (by simp [names])

theorem dots_mem_names {segs : List (List Char)} :
    ['.', '.'] ∈ names segs ↔ ['.', '.'] ∈ segs := by
  simp [names, List.mem_filter]

/-- For a name that leads Go neither to the directory nor above it: the four
SDKs find the same file in every file system with the directory in it if and
only if the name is plain. -/
theorem same_file_iff (hne : ds ≠ []) (hds : ∀ seg ∈ ds, CleanSegment seg)
    (hbelow : ¬ target ds name <+: ds) :
    (∀ (N : Type) (fs : Files N String), Mounted fs ds →
      ∃ r, ∀ r' ∈ fetches fs (join ds) name, r' = r) ↔ PlainName name := by
  constructor
  · intro h
    have hclean : ∀ seg ∈ target ds name, CleanSegment seg :=
      cleanSegment_target hds
    have hl : target ds name ≠ [] := fun hnil =>
      hbelow (hnil ▸ List.nil_prefix)
    obtain ⟨r, hr⟩ := h Place (onlyFile ds "" hl) (mounted_onlyFile hl hbelow)
    have hsegs : ∀ seg ∈ name.splitOn '/', '/' ∉ seg :=
      fun seg hseg => (of_mem_splitOn seg hseg).1
    have hnames : ∀ seg ∈ names (name.splitOn '/'), '/' ∉ seg :=
      fun seg hseg => hsegs seg (List.mem_filter.mp hseg).1
    -- Go finds the one file
    have hgo : Go.fetch (onlyFile ds "" hl) (join ds) name =
        some (some "") := by
      rw [go_fetch hne hds]
      exact fileAt_descend hl
    have hsome : ∀ r' ∈ fetches (onlyFile ds "" hl) (join ds) name,
        r' ≠ none := by
      intro r' hr'
      rw [hr r' hr', ← hr _ List.mem_cons_self, hgo]
      exact Option.some_ne_none _
    have hpython : (onlyFile ds "" hl).file? (Python.filePath (join ds) name) ≠
        none := hsome _ (by simp [fetches, Python.fetch])
    have hrelative : name.head? ≠ some '/' := by
      intro hroot
      rw [Python.filePath, if_pos hroot] at hpython
      obtain ⟨hl', hdots⟩ := names_of_resolve hl hnames hpython
      rw [dots_mem_names] at hdots
      rw [names_names, target, foldl_cleanPush_names hdots] at hl'
      simp at hl'
      exact hne hl'
    refine ⟨hrelative, fun hslash => ?_, fun hdots => ?_⟩
    · refine hsome (Node.fetch (onlyFile ds "" hl) (join ds) name)
        (by simp [fetches]) ?_
      rw [Node.fetch, node_filePath hne hds, if_pos ⟨hslash, hl⟩,
        Files.file?_slash]
    · rw [python_filePath hne hds hrelative] at hpython
      refine (names_of_resolve hl ?_ hpython).2
        (List.mem_append_right _ (dots_mem_names.mpr hdots))
      intro seg hseg
      obtain hseg | hseg := List.mem_append.mp hseg
      · exact (hds seg hseg).slash
      · exact hnames seg hseg
  · intro hplain N fs _
    exact ⟨_, fetches_plain hne hds fs hplain⟩

end

def mountPath : List (List Char) := ["etc".toList, "vexil".toList]

theorem mountPath_clean : ∀ seg ∈ mountPath, CleanSegment seg := by
  intro seg hseg
  obtain rfl | rfl : seg = "etc".toList ∨ seg = "vexil".toList := by
    simpa [mountPath] using hseg
  · exact ⟨by decide, by decide, by decide, by decide⟩
  · exact ⟨by decide, by decide, by decide, by decide⟩

theorem same_file_iff_sample :
    (∀ (N : Type) (fs : Files N String), Mounted fs mountPath →
      ∃ r, ∀ r' ∈ fetches fs (join mountPath) "themes/./dark".toList,
        r' = r) ∧
    ¬ ∀ (N : Type) (fs : Files N String), Mounted fs mountPath →
      ∃ r, ∀ r' ∈ fetches fs (join mountPath) "../secrets/token".toList,
        r' = r := by
  constructor
  · exact (same_file_iff (by decide) mountPath_clean (by decide)).mpr
      (by decide)
  · exact fun h => absurd
      ((same_file_iff (by decide) mountPath_clean (by decide)).mp h)
      (by decide)

end Vexil.Sdk
