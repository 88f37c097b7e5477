import Vexil.Lib.ServeMux

/-!
# Paths that stand for themselves

What a client has to put into a path for a router to find it there. A path of
clean pieces is left alone by the router, and a table whose routes exclude each
other sends it where one of them matches. In the other direction every step
between the path and a wildcard's value cuts or shortens, so a value that is as
long as what was put in went through all of them unchanged.
-/

namespace Vexil.Lib

universe u

/-! ## Decoding -/

theorem unescape_append {a : List Char} (h : '%' ∉ a) (b : List Char) :
    unescape (a ++ b) = (unescape b).map (a ++ ·) := by
  induction a with
  | nil => simp
  | cons c a ih =>
      rw [List.mem_cons, not_or] at h
      rw [List.cons_append, unescape_cons (Ne.symm h.1), ih h.2, Option.map_map]
      rfl

theorem unescape_plain {a : List Char} (h : '%' ∉ a) : unescape a = some a := by
  have happend := unescape_append h []
  rwa [List.append_nil, unescape, Option.map_some, List.append_nil] at happend

theorem pathUnescape_plain {a : List Char} (h : '%' ∉ a) :
    pathUnescape a = String.ofList a := pathUnescape_of_some (unescape_plain h)

/-- Decoding shortens what has an escape. -/
theorem length_unescape {l d : List Char} (h : unescape l = some d) :
    d.length ≤ l.length ∧ (d.length = l.length → '%' ∉ l) := by
  fun_induction unescape l generalizing d with
  | case1 =>
      cases h
      simp
  | case2 a b cs x y hx hy ih =>
      obtain ⟨d', hd', rfl⟩ := Option.map_eq_some_iff.mp h
      have hle := (ih hd').1
      simp only [List.length_cons]
      omega
  | case3 => cases h
  | case4 => cases h
  | case5 c cs hc ih =>
      obtain ⟨d', hd', rfl⟩ := Option.map_eq_some_iff.mp h
      obtain ⟨hle, heq⟩ := ih hd'
      simp only [List.length_cons, List.mem_cons, not_or]
      exact ⟨by omega, fun hlen => ⟨Ne.symm hc, heq (by omega)⟩⟩

theorem length_pathUnescape (seg : List Char) :
    (pathUnescape seg).toList.length ≤ seg.length := by
  rw [pathUnescape, String.toList_ofList]
  cases h : unescape seg with
  | none => exact Nat.le_refl _
  | some d => exact (length_unescape h).1

/-! ## Pieces -/

/-- A value that a wildcard can get comes from one of the pieces. -/
theorem mem_segments {pieces : List (List Char)} {v : String}
    (h : v ∈ segments pieces) (hslash : v ≠ "/") :
    ∃ p ∈ pieces, v = pathUnescape p := by
  fun_induction segments pieces with
  | case1 => cases h
  | case2 last =>
      have hv := List.mem_singleton.mp h
      split at hv
      · exact absurd hv hslash
      · exact ⟨last, List.mem_singleton_self _, hv⟩
  | case3 seg segs _ ih =>
      rcases List.mem_cons.mp h with rfl | h
      · exact ⟨seg, List.mem_cons_self, rfl⟩
      · obtain ⟨p, hp, rfl⟩ := ih h
        exact ⟨p, .tail _ hp, rfl⟩

theorem mem_of_matchSegments {ps : List Segment} {segs : List String}
    {values : List (String × String)} {name v : String}
    (h : matchSegments ps segs = some values) (hv : (name, v) ∈ values) :
    v ∈ segs ∧ v ≠ "/" := by
  fun_induction matchSegments ps segs generalizing values with
  | case1 =>
      cases h
      cases hv
  | case2 ps seg segs ih =>
      obtain ⟨hmem, hne⟩ := ih h hv
      exact ⟨.tail _ hmem, hne⟩
  | case3 => cases h
  | case4 => cases h
  | case5 wild ps seg segs hne ih =>
      obtain ⟨values', hvalues', rfl⟩ := Option.map_eq_some_iff.mp h
      rcases List.mem_cons.mp hv with heq | hv
      · cases heq
        exact ⟨List.mem_cons_self, hne⟩
      · obtain ⟨hmem, hne⟩ := ih hvalues' hv
        exact ⟨.tail _ hmem, hne⟩
  | case6 => cases h

/-! ## Clean paths -/

/-- A piece that cleaning a path leaves where it is. -/
structure CleanSegment (seg : List Char) : Prop where
  nonempty : seg ≠ []
  dot : seg ≠ ['.']
  dots : seg ≠ ['.', '.']
  slash : '/' ∉ seg

theorem foldl_cleanPush {segs : List (List Char)}
    (h : ∀ seg ∈ segs, CleanSegment seg) (done : List (List Char)) :
    segs.foldl cleanPush done = segs.reverse ++ done := by
  induction segs generalizing done with
  | nil => rfl
  | cons seg segs ih =>
      obtain ⟨hseg, h⟩ := List.forall_mem_cons.mp h
      have hpush : cleanPush done seg = seg :: done := by
        rw [cleanPush, if_neg (by simp [hseg.nonempty, hseg.dot]),
          if_neg hseg.dots]
      rw [List.foldl_cons, hpush, ih h, List.reverse_cons, List.append_assoc]
      rfl

/-- A path of clean pieces. -/
def join (segs : List (List Char)) : List Char := '/' :: ['/'].intercalate segs

theorem splitOn_join {segs : List (List Char)} (hne : segs ≠ [])
    (h : ∀ seg ∈ segs, '/' ∉ seg) : (join segs).splitOn '/' = [] :: segs := by
  have hjoin : join segs = ['/'].intercalate ([] :: segs) := by
    rw [List.intercalate_cons_of_ne_nil hne]
    rfl
  rw [hjoin]
  exact List.splitOn_intercalate '/'
    (List.forall_mem_cons.mpr ⟨List.not_mem_nil, h⟩) (List.cons_ne_nil _ _)

theorem getLast?_intercalate {segs : List (List Char)} (hne : segs ≠ [])
    (h : ∀ seg ∈ segs, CleanSegment seg) :
    ∃ c, (['/'].intercalate segs).getLast? = some c ∧ c ≠ '/' := by
  induction segs with
  | nil => exact absurd rfl hne
  | cons seg segs ih =>
      obtain ⟨hseg, h⟩ := List.forall_mem_cons.mp h
      by_cases hsegs : segs = []
      · subst hsegs
        rw [List.intercalate_singleton]
        refine ⟨_, List.getLast?_eq_some_getLast hseg.nonempty, fun hlast => ?_⟩
        exact hseg.slash (hlast ▸ List.getLast_mem hseg.nonempty)
      · obtain ⟨c, hc, hslash⟩ := ih hsegs h
        refine ⟨c, ?_, hslash⟩
        rw [List.intercalate_cons_of_ne_nil hsegs, List.getLast?_append, hc]
        rfl

theorem cleanPath_join {segs : List (List Char)} (hne : segs ≠ [])
    (h : ∀ seg ∈ segs, CleanSegment seg) :
    cleanPath (join segs) = join segs := by
  obtain ⟨c, hc, hslash⟩ := getLast?_intercalate hne h
  have hlast : (join segs).getLast? ≠ some '/' := by
    rw [join, List.getLast?_cons, hc]
    simpa using hslash
  have hpush : ([] :: segs).foldl cleanPush [] = segs.reverse := by
    rw [List.foldl_cons]
    exact (foldl_cleanPush h _).trans (List.append_nil _)
  unfold cleanPath
  dsimp only
  rw [if_pos (show (join segs).head? = some '/' from rfl),
    splitOn_join hne fun seg hseg => (h seg hseg).slash, hpush,
    List.reverse_reverse]
  exact if_neg fun hboth => hlast hboth.1

theorem segments_clean {segs : List (List Char)}
    (h : ∀ seg ∈ segs, CleanSegment seg) :
    segments segs = segs.map pathUnescape := by
  fun_induction segments segs with
  | case1 => rfl
  | case2 last => rw [if_neg (h last (List.mem_singleton_self _)).nonempty]; rfl
  | case3 seg segs _ ih =>
      rw [ih (List.forall_mem_cons.mp h).2, List.map_cons]

/-! ## Routing -/

section
variable {H : Type u}

/-- No two routes for one method take the same pieces. -/
def Apart (routes : List (Route H)) (segs : List String) : Prop :=
  routes.Pairwise fun r r' => r.method = r'.method →
    (matchSegments r.pattern segs).isSome → matchSegments r'.pattern segs = none

theorem findRoute_of_mem {routes : List (Route H)} {segs : List String}
    (hapart : Apart routes segs) {r : Route H} (hr : r ∈ routes)
    {values : List (String × String)}
    (hmatch : matchSegments r.pattern segs = some values) :
    findRoute routes r.method segs = some (r.handler, values) := by
  induction routes with
  | nil => cases hr
  | cons r' routes ih =>
      obtain ⟨hfirst, hrest⟩ := List.pairwise_cons.mp hapart
      rw [findRoute, List.findSome?_cons]
      rcases List.mem_cons.mp hr with rfl | hr
      · rw [Route.matches?, if_pos rfl, hmatch]
        rfl
      · have hnone : r'.matches? r.method segs = none := by
          unfold Route.matches?
          split
          · next hmethod =>
              cases hm : matchSegments r'.pattern segs with
              | none => rfl
              | some _ =>
                  have := hfirst r hr hmethod (by rw [hm]; rfl)
                  rw [hmatch] at this
                  cases this
          · rfl
        rw [hnone]
        exact ih hrest hr

/-- A path of clean pieces is only looked up. -/
theorem serveMux_clean {routes : List (Route H)} {method : String}
    {segs : List (List Char)} (hne : segs ≠ [])
    (hclean : ∀ seg ∈ segs, CleanSegment seg) {url : URL}
    (hpath : url.escapedPath.toList = join segs)
    {h : H} {values : List (String × String)}
    (hfind : findRoute routes method (segs.map pathUnescape) =
      some (h, values)) :
    serveMux routes method url = .handler h values := by
  have hstar : url.escapedPath ≠ "*" := by
    intro h
    rw [h] at hpath
    cases hpath
  have hsegs : segments (url.escapedPath.toList.tail.splitOn '/') =
      segs.map pathUnescape := by
    rw [hpath, join, List.tail_cons, List.splitOn_intercalate '/'
      (fun seg hseg => (hclean seg hseg).slash) hne, segments_clean hclean]
  unfold serveMux
  dsimp only
  rw [if_neg hstar, hsegs, hpath, cleanPath_join hne hclean,
    if_neg (fun h => h.2 rfl), matchMethodAndPath, hfind]

/-- A path of clean pieces goes to the route that takes them. -/
theorem serveMux_of_mem {routes : List (Route H)} {segs : List (List Char)}
    (hapart : Apart routes (segs.map pathUnescape)) {r : Route H}
    (hr : r ∈ routes) (hne : segs ≠ [])
    (hclean : ∀ seg ∈ segs, CleanSegment seg) {url : URL}
    (hpath : url.escapedPath.toList = join segs)
    {values : List (String × String)}
    (hmatch : matchSegments r.pattern (segs.map pathUnescape) = some values) :
    serveMux routes r.method url = .handler r.handler values := by
  have hstar : url.escapedPath ≠ "*" := by
    intro h
    rw [h] at hpath
    cases hpath
  have hsegs : segments (url.escapedPath.toList.tail.splitOn '/') =
      segs.map pathUnescape := by
    rw [hpath, join, List.tail_cons, List.splitOn_intercalate '/'
      (fun seg hseg => (hclean seg hseg).slash) hne, segments_clean hclean]
  unfold serveMux
  dsimp only
  rw [if_neg hstar, hsegs, hpath, cleanPath_join hne hclean,
    if_neg (fun h => h.2 rfl), matchMethodAndPath,
    findRoute_of_mem hapart hr hmatch]

end

end Vexil.Lib
