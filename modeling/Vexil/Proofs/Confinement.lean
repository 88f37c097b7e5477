import Vexil.Proofs.MountedDirs

/-!
# Which names lead out of the directory

The name of a flag goes into a path as it is. Taking dots out of it leaves a
number of levels to go up and the pieces to go down from there, and a name can
lead out of the directory if there is something of both. Go has that alone; Node
and .NET find nothing under a name that ends with a slash, and for .NET a name
that begins with one leads out whatever it is. Python leaves dots to the
operating system; where there are no links, it finds nothing under a relative
name that Go does not find.
-/

namespace Vexil.Sdk

open Vexil.Lib

/-! ## Up and down -/

/-- One more piece of a name. -/
def turn (way : Nat × List (List Char)) (seg : List Char) :
    Nat × List (List Char) :=
  if seg = [] ∨ seg = ['.'] then way
  else if seg = ['.', '.'] then
    if way.2 = [] then (way.1 + 1, []) else (way.1, way.2.tail)
  else (way.1, seg :: way.2)

/-- The levels to go up, and the pieces to go down, the last one first. -/
def way (name : List Char) : Nat × List (List Char) :=
  (name.splitOn '/').foldl turn (0, [])

/-- The name goes up and comes down again. -/
def LeadsOut (name : List Char) : Prop := (way name).1 ≠ 0 ∧ (way name).2 ≠ []

instance (name : List Char) : Decidable (LeadsOut name) :=
  inferInstanceAs (Decidable (_ ∧ _))

theorem foldl_turn (ds segs : List (List Char)) (w : Nat × List (List Char)) :
    segs.foldl cleanPush (w.2 ++ ds.drop w.1) =
      (segs.foldl turn w).2 ++ ds.drop (segs.foldl turn w).1 := by
  induction segs generalizing w with
  | nil => rfl
  | cons seg segs ih =>
      rw [List.foldl_cons, List.foldl_cons, ← ih, turn, cleanPush]
      split
      · rfl
      · split
        · split
          · next hdown =>
              rw [hdown]
              simp [List.tail_drop]
          · next hdown =>
              obtain ⟨last, down, hw⟩ := List.exists_cons_of_ne_nil hdown
              rw [hw]
              rfl
        · rfl

/-- Where a name leads from any directory. -/
theorem target_eq (ds : List (List Char)) (name : List Char) :
    target ds name =
      (ds.reverse.drop (way name).1).reverse ++ (way name).2.reverse := by
  have h := foldl_turn ds.reverse (name.splitOn '/') (0, [])
  rw [List.nil_append, List.drop_zero] at h
  rw [target, h, List.reverse_append, way]

/-! ## What is confined -/

/-- What an SDK finds, by the file system, the path and the name. -/
abbrev Find : Type 1 :=
  (N : Type) → Files N String → List Char → List Char → Option (Option String)

/-- Under this name nothing is found but files below the directory, in any file
system. -/
def Confined (find : Find) (name : List Char) : Prop :=
  ∀ (N : Type) (fs : Files N String) (ds : List (List Char)), ds ≠ [] →
    (∀ seg ∈ ds, CleanSegment seg) → Mounted fs ds →
    find N fs (join ds) name ≠ none →
    ∃ segs, find N fs (join ds) name =
      fs.fileAt (fs.descend fs.root (ds ++ segs))

/-- On the way to the directory there are no files. -/
theorem fileAt_onTheWay {N : Type} {fs : Files N String}
    {ds p : List (List Char)} (hmount : Mounted fs ds) (hp : p <+: ds) :
    fs.fileAt (fs.descend fs.root p) = none := by
  obtain ⟨segs, rfl⟩ := hp
  obtain ⟨n, hn, hdir⟩ := hmount
  rw [Files.descend_append] at hn
  obtain ⟨m, hm, hrest⟩ := Option.bind_eq_some_iff.mp hn
  have hkind : fs.kind m = .dir := by
    cases segs with
    | nil =>
        obtain rfl := Option.some.inj hrest
        exact hdir
    | cons seg segs =>
        rw [Files.descend, List.foldlM_cons] at hrest
        obtain ⟨k, hk, _⟩ := Option.bind_eq_some_iff.mp hrest
        exact fs.kind_of_child hk
  simp [hm, Files.fileAt, hkind]

/-- An SDK that looks up the pieces of a target is confined if and only if the
target is below the directory, or on the way to it. -/
theorem confined_iff {find : Find} {name : List Char}
    {T : List (List Char) → List (List Char)}
    (hfind : ∀ (N : Type) (fs : Files N String) (ds : List (List Char)),
      ds ≠ [] → (∀ seg ∈ ds, CleanSegment seg) →
        find N fs (join ds) name = fs.fileAt (fs.descend fs.root (T ds))) :
    Confined find name ↔ ∀ ds, ds ≠ [] → (∀ seg ∈ ds, CleanSegment seg) →
      ds <+: T ds ∨ T ds <+: ds := by
  constructor
  · intro h ds hne hds
    by_contra hout
    rw [not_or] at hout
    have hl : T ds ≠ [] := fun hnil => hout.2 (hnil ▸ List.nil_prefix)
    have hfile : find _ (onlyFile ds "" hl) (join ds) name =
        some (some "") := by
      rw [hfind _ _ ds hne hds]
      exact fileAt_descend hl
    obtain ⟨segs, hsegs⟩ := h _ (onlyFile ds "" hl) ds hne hds
      (mounted_onlyFile hl hout.2) (by simp [hfile])
    have hfound : (onlyFile ds "" hl).fileAt
        ((onlyFile ds "" hl).descend (some []) (ds ++ segs)) ≠ none := by
      refine ne_of_eq_of_ne hsegs.symm ?_
      rw [hfile]
      exact Option.some_ne_none _
    have hplace := path_of_descend hl (fileAt_onlyFile hl hfound)
    refine hout.1 ⟨segs, ?_⟩
    simpa using hplace.symm
  · intro h N fs ds hne hds hmount hsome
    rw [hfind N fs ds hne hds] at hsome ⊢
    obtain ⟨segs, hsegs⟩ | hprefix := h ds hne hds
    · exact ⟨segs, by rw [hsegs]⟩
    · exact absurd (fileAt_onTheWay hmount hprefix) hsome

/-- There is a directory that has nothing to do with a path. -/
theorem exists_apart {c : List (List Char)} (hc : c ≠ []) :
    ∃ f, CleanSegment f ∧ ¬ [f] <+: c ∧ ¬ c <+: [f] := by
  obtain ⟨d, rest, rfl⟩ := List.exists_cons_of_ne_nil hc
  have hother : ∃ f, CleanSegment f ∧ f ≠ d := by
    by_cases hd : d = "a".toList
    · refine ⟨"b".toList, ⟨by decide, by decide, by decide, by decide⟩, ?_⟩
      rw [hd]
      decide
    · exact ⟨"a".toList, ⟨by decide, by decide, by decide, by decide⟩,
        Ne.symm hd⟩
  obtain ⟨f, hf, hne⟩ := hother
  refine ⟨f, hf, fun h => ?_, fun h => ?_⟩
  · exact hne (List.cons_prefix_cons.mp h).1
  · exact hne (List.cons_prefix_cons.mp h).1.symm

/-- A target that goes up and comes down again is, from some directory, neither
below it nor on the way to it. -/
theorem below_iff (name : List Char) :
    (∀ ds, ds ≠ [] → (∀ seg ∈ ds, CleanSegment seg) →
      ds <+: target ds name ∨ target ds name <+: ds) ↔ ¬ LeadsOut name := by
  constructor
  · rintro h ⟨hup, hdown⟩
    obtain ⟨f, hf, hout⟩ := exists_apart (List.reverse_ne_nil_iff.mpr hdown)
    have hfrom : target [f] name = (way name).2.reverse := by
      rw [target_eq, List.drop_eq_nil_of_le (by simp; omega)]
      rfl
    have hor := h [f] (List.cons_ne_nil _ _) (by simpa using hf)
    rw [hfrom] at hor
    exact hor.elim hout.1 hout.2
  · intro h ds _ _
    rw [target_eq]
    by_cases hup : (way name).1 = 0
    · rw [hup, List.drop_zero, List.reverse_reverse]
      exact .inl (List.prefix_append _ _)
    · have hdown : (way name).2 = [] := by
        by_contra hdown
        exact h ⟨hup, hdown⟩
      rw [hdown, List.reverse_nil, List.append_nil]
      have hsuffix := List.drop_suffix (way name).1 ds.reverse
      exact .inr (by simpa using List.reverse_prefix.mpr hsuffix)

/-- A path of its own leads out unless it is the root. -/
theorem rooted_iff (c : List (List Char)) :
    (∀ ds, ds ≠ [] → (∀ seg ∈ ds, CleanSegment seg) →
      ds <+: c ∨ c <+: ds) ↔ c = [] := by
  constructor
  · intro h
    by_contra hc
    obtain ⟨f, hf, hout⟩ := exists_apart hc
    have hor := h [f] (List.cons_ne_nil _ _) (by simpa using hf)
    exact hor.elim hout.1 hout.2
  · rintro rfl ds _ _
    exact .inr List.nil_prefix

/-! ## The SDKs -/

section
variable {N : Type} {fs : Files N String} {ds : List (List Char)}
  {name : List Char}

theorem node_fetch (hne : ds ≠ []) (hds : ∀ seg ∈ ds, CleanSegment seg) :
    Node.fetch fs (join ds) name =
      if name.getLast? = some '/' then none
      else fs.fileAt (fs.descend fs.root (target ds name)) := by
  rw [Node.fetch, Node.filePath, Files.file?_cleanPath (head?_arg name),
    cleaned_arg hne hds]
  simp only [getLast?_arg hne hds]

theorem dotnet_fetch_eq (dir name : List Char) :
    Dotnet.fetch fs dir name = fs.file? (Dotnet.filePath dir name) := by
  unfold Dotnet.fetch
  dsimp only
  split
  · next hlast =>
      obtain ⟨path, hpath⟩ := List.getLast?_eq_some_iff.mp hlast
      rw [hpath, Files.file?_slash]
  · rfl

theorem dotnet_fetch (hne : ds ≠ []) (hds : ∀ seg ∈ ds, CleanSegment seg) :
    Dotnet.fetch fs (join ds) name =
      if name.getLast? = some '/' then none
      else fs.fileAt (fs.descend fs.root
        (if name.head? = some '/' then cleaned name else target ds name)) := by
  rw [dotnet_fetch_eq]
  by_cases hrooted : name.head? = some '/'
  · have hname : name ≠ [] := by
      rintro rfl
      cases hrooted
    rw [Dotnet.filePath, if_neg hname, if_pos hrooted, if_pos hrooted,
      Files.file?_cleanPath hrooted]
  · rw [dotnet_filePath _ hrooted, if_neg hrooted]
    exact node_fetch hne hds

/-- What Python finds under a relative name, where there are no links, Go finds
too. -/
theorem python_fetch_le (hfs : fs.Linkless) (hne : ds ≠ [])
    (hds : ∀ seg ∈ ds, CleanSegment seg) (hrelative : name.head? ≠ some '/')
    {data : Option String} (h : Python.fetch fs (join ds) name = some data) :
    Go.fetch fs (join ds) name = some data := by
  have hslash : ∀ seg ∈ ds ++ names (name.splitOn '/'), '/' ∉ seg := by
    intro seg hseg
    obtain hseg | hseg := List.mem_append.mp hseg
    · exact (hds seg hseg).slash
    · exact (of_mem_splitOn seg (List.mem_filter.mp hseg).1).1
  rw [Python.fetch, python_filePath hne hds hrelative, Files.file?,
    Files.resolve_join hslash] at h
  rw [go_fetch hne hds fs]
  cases hwalk : fs.walk fs.root (ds ++ names (name.splitOn '/')) with
  | none =>
      rw [hwalk] at h
      cases h
  | some m =>
      have hroot : fs.descend fs.root ([] : List (List Char)).reverse =
          some fs.root := rfl
      have hlexical := Files.walk_lexical hfs hroot hwalk
      rw [List.foldl_append, foldl_cleanPush hds, List.append_nil,
        foldl_names] at hlexical
      rw [hwalk] at h
      show fs.fileAt (fs.descend fs.root (target ds name)) = _
      rw [target, hlexical]
      exact h

end

theorem confined_none {find : Find} {name : List Char}
    (h : ∀ (N : Type) (fs : Files N String) (ds : List (List Char)),
      ds ≠ [] → (∀ seg ∈ ds, CleanSegment seg) →
        find N fs (join ds) name = none) : Confined find name :=
  fun N fs ds hne hds _ hsome => absurd (h N fs ds hne hds) hsome

/-- The names that lead out of the directory: for Go those that go up and come
down again, for Node those of them that do not end with a slash, for .NET these
and every path of its own but the root; and where there are no links, Python
finds nothing under a relative name that Go does not find. -/
theorem confined_names (name : List Char) :
    (Confined (fun _ => Go.fetch) name ↔ ¬ LeadsOut name) ∧
    (Confined (fun _ => Node.fetch) name ↔
      name.getLast? = some '/' ∨ ¬ LeadsOut name) ∧
    (Confined (fun _ => Dotnet.fetch) name ↔ name.getLast? = some '/' ∨
      if name.head? = some '/' then cleaned name = [] else ¬ LeadsOut name) ∧
    (name.head? ≠ some '/' → ∀ (N : Type) (fs : Files N String),
      fs.Linkless → ∀ ds, ds ≠ [] → (∀ seg ∈ ds, CleanSegment seg) →
        ∀ data, Python.fetch fs (join ds) name = some data →
          Go.fetch fs (join ds) name = some data) := by
  refine ⟨?_, ?_, ?_, ?_⟩
  · rw [confined_iff fun _ fs _ hne hds => go_fetch hne hds fs, below_iff]
  · by_cases hlast : name.getLast? = some '/'
    · refine iff_of_true (confined_none fun N fs ds hne hds => ?_) (.inl hlast)
      rw [node_fetch hne hds, if_pos hlast]
    · rw [confined_iff fun N fs ds hne hds => (node_fetch hne hds).trans
        (if_neg hlast), below_iff]
      simp [hlast]
  · by_cases hlast : name.getLast? = some '/'
    · refine iff_of_true (confined_none fun N fs ds hne hds => ?_) (.inl hlast)
      rw [dotnet_fetch hne hds, if_pos hlast]
    · rw [confined_iff fun N fs ds hne hds => (dotnet_fetch hne hds).trans
        (if_neg hlast)]
      split
      · rw [rooted_iff]
        simp [hlast]
      · rw [below_iff]
        simp [hlast]
  · exact fun hrelative N fs hfs ds hne hds data h =>
      python_fetch_le hfs hne hds hrelative h

/-! The name of a secret next to the directory, of a file anywhere, and of one
that is only looked for elsewhere. -/

theorem confined_names_sample :
    ¬ Confined (fun _ => Go.fetch) "../secrets/token".toList ∧
    ¬ Confined (fun _ => Dotnet.fetch) "/run/secrets/token".toList ∧
    Confined (fun _ => Go.fetch) "/run/secrets/token".toList ∧
    Confined (fun _ => Node.fetch) "themes/../../vexil/".toList := by
  refine ⟨?_, ?_, ?_, ?_⟩
  · rw [(confined_names _).1]
    decide
  · rw [(confined_names _).2.2.1]
    decide
  · rw [(confined_names _).1]
    decide
  · rw [(confined_names _).2.1]
    decide

end Vexil.Sdk
