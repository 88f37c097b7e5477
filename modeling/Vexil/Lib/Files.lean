import Vexil.Lib.PlainPath

/-!
# Paths in a file system

A path is resolved one piece at a time from the root, as a kernel does it: an
empty piece and a dot stay, two dots go to the parent of the directory one is
in, and any other piece is looked up there, with links followed. A link may lead
anywhere, so the parent of what a piece leads to need not be where one came
from, and taking dots out of a path before it is resolved is a different thing
from resolving them. Where no piece of the path is a dot or two, both agree
(`walk_clean`).
-/

namespace Vexil.Lib

universe u v

inductive FileKind (D : Type v) where
  | dir
  /-- `none` when it cannot be read. -/
  | file (data : Option D)

/-- The directories and files there are, seen with links followed. -/
structure Files (N : Type u) (D : Type v) where
  root : N
  kind : N → FileKind D
  child : N → List Char → Option N
  parent : N → N
  kind_root : kind root = .dir
  kind_parent : ∀ n, kind (parent n) = .dir
  kind_of_child : ∀ {n seg m}, child n seg = some m → kind n = .dir

namespace Files

variable {N : Type u} {D : Type v} (fs : Files N D)

/-- Resolve the pieces of a path. -/
def walk : N → List (List Char) → Option N
  | n, [] => some n
  | n, seg :: segs =>
      match fs.kind n with
      | .file _ => none
      | .dir =>
          if seg = [] ∨ seg = ['.'] then walk n segs
          else if seg = ['.', '.'] then walk (fs.parent n) segs
          else (fs.child n seg).bind fun m => walk m segs

/-- Resolve a path that begins with a slash. -/
def resolve (path : List Char) : Option N := fs.walk fs.root (path.splitOn '/')

/-- What is in the file there, if it is a file. -/
def fileAt : Option N → Option (Option D)
  | none => none
  | some n =>
      match fs.kind n with
      | .dir => none
      | .file data => some data

/-- Read the file at a path. -/
def file? (path : List Char) : Option (Option D) := fs.fileAt (fs.resolve path)

/-- Look up one piece after the other. -/
def descend (n : N) (segs : List (List Char)) : Option N :=
  segs.foldlM fs.child n

variable {fs}

theorem child_of_file {n : N} {data : Option D} (h : fs.kind n = .file data)
    (seg : List Char) : fs.child n seg = none := by
  cases hc : fs.child n seg with
  | none => rfl
  | some m =>
      have hdir := fs.kind_of_child hc
      rw [h] at hdir
      cases hdir

theorem walk_cons_clean {seg : List Char} (h : CleanSegment seg) (n : N)
    (segs : List (List Char)) :
    fs.walk n (seg :: segs) = (fs.child n seg).bind (fs.walk · segs) := by
  rw [walk]
  cases hk : fs.kind n with
  | file data =>
      rw [child_of_file hk]
      rfl
  | dir =>
      dsimp only
      rw [if_neg (by simp [h.nonempty, h.dot]), if_neg h.dots]

/-- Clean pieces are looked up one after the other. -/
theorem walk_clean {segs : List (List Char)}
    (h : ∀ seg ∈ segs, CleanSegment seg) (n : N) :
    fs.walk n segs = fs.descend n segs := by
  induction segs generalizing n with
  | nil => rfl
  | cons seg segs ih =>
      obtain ⟨hseg, h⟩ := List.forall_mem_cons.mp h
      rw [walk_cons_clean hseg, descend, List.foldlM_cons]
      cases fs.child n seg with
      | none => rfl
      | some m => exact ih h m

theorem descend_append (n : N) (segs segs' : List (List Char)) :
    fs.descend n (segs ++ segs') =
      (fs.descend n segs).bind (fs.descend · segs') := by
  rw [descend, List.foldlM_append]
  rfl

/-- The path that joins some pieces is resolved as these pieces are. -/
theorem resolve_join {segs : List (List Char)} (h : ∀ seg ∈ segs, '/' ∉ seg) :
    fs.resolve (join segs) = fs.walk fs.root segs := by
  have hroot : ∀ segs, fs.walk fs.root ([] :: segs) = fs.walk fs.root segs := by
    intro segs
    rw [walk, fs.kind_root]
    exact if_pos (.inl rfl)
  by_cases hne : segs = []
  · subst hne
    show fs.walk fs.root ([[], []]) = _
    rw [hroot, hroot]
  · rw [resolve, splitOn_join hne h, hroot]

/-- A slash at the end asks for a directory. -/
theorem fileAt_walk_slash (n : N) (segs : List (List Char)) :
    fs.fileAt (fs.walk n (segs ++ [[]])) = none := by
  induction segs generalizing n with
  | nil =>
      show fs.fileAt (fs.walk n [[]]) = none
      rw [walk]
      cases hk : fs.kind n with
      | file data => rfl
      | dir => simp [walk, fileAt, hk]
  | cons seg segs ih =>
      rw [List.cons_append, walk]
      cases hk : fs.kind n with
      | file data => rfl
      | dir =>
          dsimp only
          split
          · exact ih n
          · split
            · exact ih (fs.parent n)
            · cases fs.child n seg with
              | none => rfl
              | some m => exact ih m

end Files

/-! ## Dots taken out beforehand -/

/-- What is left of the pieces of a path when dots are taken out of it. -/
def cleaned (path : List Char) : List (List Char) :=
  ((path.splitOn '/').foldl cleanPush []).reverse

/-- `path.Clean` of a path that begins with a slash. -/
def clean (path : List Char) : List Char := join (cleaned path)

/-- The pieces that are not empty and no dot. -/
def names (segs : List (List Char)) : List (List Char) :=
  segs.filter fun seg => ¬ (seg = [] ∨ seg = ['.'])

theorem cleanSegment_cleanPush {done : List (List Char)} {seg : List Char}
    (hdone : ∀ seg ∈ done, CleanSegment seg) (hslash : '/' ∉ seg) :
    ∀ seg' ∈ cleanPush done seg, CleanSegment seg' := by
  unfold cleanPush
  split
  · exact hdone
  · next hdot =>
      rw [not_or] at hdot
      split
      · exact fun seg' h => hdone seg' (List.mem_of_mem_tail h)
      · next hdots =>
          exact List.forall_mem_cons.mpr
            ⟨⟨hdot.1, hdot.2, hdots, hslash⟩, hdone⟩

theorem cleanSegment_foldl {done segs : List (List Char)}
    (hdone : ∀ seg ∈ done, CleanSegment seg)
    (hslash : ∀ seg ∈ segs, '/' ∉ seg) :
    ∀ seg ∈ segs.foldl cleanPush done, CleanSegment seg := by
  induction segs generalizing done with
  | nil => exact hdone
  | cons seg segs ih =>
      obtain ⟨hseg, hslash⟩ := List.forall_mem_cons.mp hslash
      exact ih (cleanSegment_cleanPush hdone hseg) hslash

theorem cleanSegment_cleaned (path : List Char) :
    ∀ seg ∈ cleaned path, CleanSegment seg := by
  intro seg hseg
  refine cleanSegment_foldl (fun _ h => absurd h List.not_mem_nil)
    (fun seg h => (of_mem_splitOn seg h).1) seg (List.mem_reverse.mp hseg)

/-- Without two dots nothing is taken back. -/
theorem foldl_cleanPush_names {segs : List (List Char)}
    (h : ['.', '.'] ∉ segs) (done : List (List Char)) :
    segs.foldl cleanPush done = (names segs).reverse ++ done := by
  induction segs generalizing done with
  | nil => rfl
  | cons seg segs ih =>
      rw [List.mem_cons, not_or] at h
      rw [List.foldl_cons, ih h.2, cleanPush]
      by_cases hseg : seg = [] ∨ seg = ['.']
      · have hnames : names (seg :: segs) = names segs :=
          List.filter_cons_of_neg (by simp [hseg])
        rw [if_pos hseg, hnames]
      · have hnames : names (seg :: segs) = seg :: names segs :=
          List.filter_cons_of_pos (by simpa using hseg)
        rw [if_neg hseg, if_neg (Ne.symm h.1), hnames, List.reverse_cons,
          List.append_assoc]
        rfl

/-- Pieces that stay do not matter. -/
theorem foldl_names (segs done : List (List Char)) :
    (names segs).foldl cleanPush done = segs.foldl cleanPush done := by
  induction segs generalizing done with
  | nil => rfl
  | cons seg segs ih =>
      by_cases hseg : seg = [] ∨ seg = ['.']
      · have hnames : names (seg :: segs) = names segs :=
          List.filter_cons_of_neg (by simp [hseg])
        rw [hnames, ih, List.foldl_cons, cleanPush, if_pos hseg]
      · have hnames : names (seg :: segs) = seg :: names segs :=
          List.filter_cons_of_pos (by simpa using hseg)
        rw [hnames, List.foldl_cons, List.foldl_cons, ih]

/-- The pieces of a path below a directory. -/
theorem splitOn_below {dir : List (List Char)} (hne : dir ≠ [])
    (hdir : ∀ seg ∈ dir, CleanSegment seg) (name : List Char) :
    (join dir ++ '/' :: name).splitOn '/' =
      [] :: (dir ++ name.splitOn '/') := by
  rw [List.splitOn_append_cons_self,
    splitOn_join hne fun seg hseg => (hdir seg hseg).slash]
  rfl

theorem cleaned_below {dir : List (List Char)} (hne : dir ≠ [])
    (hdir : ∀ seg ∈ dir, CleanSegment seg) (name : List Char) :
    cleaned (join dir ++ '/' :: name) =
      ((name.splitOn '/').foldl cleanPush dir.reverse).reverse := by
  rw [cleaned, splitOn_below hne hdir, List.foldl_cons, List.foldl_append]
  show ((name.splitOn '/').foldl cleanPush (dir.foldl cleanPush [])).reverse = _
  rw [foldl_cleanPush hdir, List.append_nil]

theorem join_ne_root {segs : List (List Char)} (hne : segs ≠ [])
    (h : ∀ seg ∈ segs, CleanSegment seg) : join segs ≠ ['/'] := by
  obtain ⟨c, hc, _⟩ := getLast?_intercalate hne h
  intro heq
  have hempty : ['/'].intercalate segs = [] := (List.cons.inj heq).2
  rw [hempty] at hc
  cases hc

/-- `cleanPath` keeps the slash at the end. -/
theorem cleanPath_eq {path : List Char} (h : path.head? = some '/') :
    cleanPath path =
      if path.getLast? = some '/' ∧ cleaned path ≠ [] then clean path ++ ['/']
      else clean path := by
  have hroot : clean path ≠ ['/'] ↔ cleaned path ≠ [] := by
    constructor
    · intro hne heq
      exact hne (by rw [clean, heq]; rfl)
    · exact fun hne => join_ne_root hne (cleanSegment_cleaned path)
  unfold cleanPath
  dsimp only
  rw [if_pos h]
  show (if path.getLast? = some '/' ∧ clean path ≠ ['/'] then _ else _) = _
  simp only [hroot]
  rfl

namespace Files

variable {N : Type u} {D : Type v} {fs : Files N D}

theorem file?_slash (path : List Char) : fs.file? (path ++ ['/']) = none := by
  have hsplit : (path ++ ['/']).splitOn '/' = path.splitOn '/' ++ [[]] :=
    List.splitOn_append_cons_self _ _
  rw [file?, resolve, hsplit]
  exact fileAt_walk_slash _ _

theorem file?_join {segs : List (List Char)}
    (h : ∀ seg ∈ segs, CleanSegment seg) :
    fs.file? (join segs) = fs.fileAt (fs.descend fs.root segs) := by
  rw [file?, resolve_join fun seg hseg => (h seg hseg).slash,
    walk_clean h]

theorem file?_root : fs.file? (join []) = none := by
  rw [file?_join (by simp)]
  simp [descend, fileAt, fs.kind_root]

/-- What a cleaned path leads to. -/
theorem file?_cleanPath {path : List Char} (h : path.head? = some '/') :
    fs.file? (cleanPath path) =
      if path.getLast? = some '/' then none
      else fs.fileAt (fs.descend fs.root (cleaned path)) := by
  rw [cleanPath_eq h]
  by_cases hlast : path.getLast? = some '/'
  · rw [if_pos hlast]
    split
    · exact file?_slash _
    · next hroot =>
        have hnil : cleaned path = [] := by
          by_contra hnil
          exact hroot ⟨hlast, hnil⟩
        rw [clean, hnil, file?_root]
  · rw [if_neg hlast, if_neg fun hboth => hlast hboth.1, clean,
      file?_join (cleanSegment_cleaned path)]

/-- No directory is reached by a link. -/
structure Linkless (fs : Files N D) : Prop where
  parent_root : fs.parent fs.root = fs.root
  parent_child {n m : N} {seg : List Char} (h : fs.child n seg = some m) :
    fs.parent m = n

/-- What is reached with the dots resolved is there when they are taken out. -/
theorem walk_lexical (hfs : fs.Linkless) {done segs : List (List Char)}
    {n m : N} (hn : fs.descend fs.root done.reverse = some n)
    (h : fs.walk n segs = some m) :
    fs.descend fs.root (segs.foldl cleanPush done).reverse = some m := by
  induction segs generalizing done n with
  | nil =>
      cases h
      exact hn
  | cons seg segs ih =>
      rw [walk] at h
      rw [List.foldl_cons, cleanPush]
      split at h
      · cases h
      · split at h
        · next hseg =>
            rw [if_pos hseg]
            exact ih hn h
        · next hseg =>
            rw [if_neg hseg]
            split at h
            · next hdots =>
                rw [if_pos hdots]
                refine ih ?_ h
                cases done with
                | nil =>
                    obtain rfl := Option.some.inj hn
                    rw [hfs.parent_root]
                    rfl
                | cons last done =>
                    rw [List.reverse_cons, descend_append] at hn
                    obtain ⟨up, hup, hlast⟩ := Option.bind_eq_some_iff.mp hn
                    have hchild : fs.child up last = some n := by
                      simpa [descend] using hlast
                    rw [hfs.parent_child hchild]
                    exact hup
            · next hdots =>
                rw [if_neg hdots]
                obtain ⟨k, hk, hrest⟩ := Option.bind_eq_some_iff.mp h
                refine ih ?_ hrest
                rw [List.reverse_cons, descend_append, hn]
                simpa [descend] using hk

end Files

end Vexil.Lib
