import Vexil.Lib.Go

/-!
# Paths and routes in `net/http`

A request names its path twice. `URL.path` is the whole path percent-decoded;
the router works on the escaped form, cuts it at each `/` and decodes the pieces
one by one. So `a%2Fb` is two segments to whoever looks at the decoded path and
one to the router, and code that compares one form while the router matches the
other has to be right about both.

What relates the two is small: a slash is no hex digit, so no escape runs across
one, and decoding the pieces is decoding the whole. `path_of_literals` is the
form in which it is used. A route of literals can only be reached by a request
whose decoded path is the route.

A path is its bytes here, a character below 256 for each: what an escape stands
for need not be UTF-8.
-/

namespace Vexil.Lib

universe u

/-! ## Percent-decoding -/

def unhex (c : Char) : Option Nat :=
  if '0' ≤ c ∧ c ≤ '9' then some (c.toNat - '0'.toNat)
  else if 'a' ≤ c ∧ c ≤ 'f' then some (c.toNat - 'a'.toNat + 10)
  else if 'A' ≤ c ∧ c ≤ 'F' then some (c.toNat - 'A'.toNat + 10)
  else none

/-- `url.PathUnescape`; `none` when an escape is malformed. -/
def unescape : List Char → Option (List Char)
  | [] => some []
  | c :: cs =>
      if c = '%' then
        match cs with
        | a :: b :: cs' =>
            match unhex a, unhex b with
            | some x, some y =>
                (unescape cs').map (Char.ofNat (16 * x + y) :: ·)
            | _, _ => none
        | _ => none
      else (unescape cs).map (c :: ·)

theorem unhex_slash : unhex '/' = none := by decide

theorem unescape_cons {c : Char} (h : c ≠ '%') (cs : List Char) :
    unescape (c :: cs) = (unescape cs).map (c :: ·) := by
  rw [unescape.eq_def]
  simp only [if_neg h]

/-- An escape does not run across a slash. -/
theorem unescape_slash {a b d : List Char}
    (h : unescape (a ++ '/' :: b) = some d) :
    ∃ da db, unescape a = some da ∧ unescape b = some db ∧
      d = da ++ '/' :: db := by
  fun_induction unescape a generalizing d with
  | case1 =>
      rw [List.nil_append, unescape_cons (by decide)] at h
      obtain ⟨db, hdb, rfl⟩ := Option.map_eq_some_iff.mp h
      exact ⟨[], db, rfl, hdb, rfl⟩
  | case2 x y cs m n hy hx ih =>
      simp only [List.cons_append, unescape, hx, hy, if_pos] at h
      obtain ⟨d', hd', rfl⟩ := Option.map_eq_some_iff.mp h
      obtain ⟨da, db, ha, hb, rfl⟩ := ih hd'
      exact ⟨_ :: da, db, by rw [ha]; rfl, hb, rfl⟩
  | case3 x y cs hno =>
      simp only [List.cons_append, unescape, if_pos] at h
      cases h
  | case4 cs hshort =>
      -- fewer than two characters are left before the slash
      cases cs with
      | nil =>
          cases b with
          | nil => simp [unescape] at h
          | cons c b => simp [unescape, unhex_slash] at h
      | cons c cs =>
          cases cs with
          | nil => simp [unescape, unhex_slash] at h
          | cons c' cs => exact (hshort c c' cs rfl).elim
  | case5 c cs hc ih =>
      rw [List.cons_append, unescape_cons hc] at h
      obtain ⟨d', hd', rfl⟩ := Option.map_eq_some_iff.mp h
      obtain ⟨da, db, ha, hb, rfl⟩ := ih hd'
      exact ⟨c :: da, db, by rw [ha]; rfl, hb, rfl⟩

/-! ## The two forms of a path -/

/-- `url.URL`, in the parts a server looks at: the path as it came, and as
decoded. -/
structure URL where
  escapedPath : String
  path : String
  decodes : unescape escapedPath.toList = some path.toList

/-- One piece as the router sees it: a malformed escape is left as it is. -/
def pathUnescape (seg : List Char) : String :=
  String.ofList ((unescape seg).getD seg)

theorem pathUnescape_of_some {seg d : List Char} (h : unescape seg = some d) :
    pathUnescape seg = String.ofList d := by
  rw [pathUnescape, h]
  rfl

/-- The pieces after the first slash. A slash at the end counts as a piece of
its own. -/
def segments : List (List Char) → List String
  | [] => []
  | [last] => [if last = [] then "/" else pathUnescape last]
  | seg :: segs => pathUnescape seg :: segments segs

/-- `path.Clean`, one piece of the path: nothing, the same place, or one up. -/
def cleanPush (done : List (List Char)) (seg : List Char) : List (List Char) :=
  if seg = [] ∨ seg = ['.'] then done
  else if seg = ['.', '.'] then done.tail
  else seg :: done

/-- `cleanPath`: rooted, without empty or dot pieces, and with the slash at the
end kept. -/
def cleanPath (path : List Char) : List Char :=
  let p := if path.head? = some '/' then path else '/' :: path
  let np := '/' ::
    ['/'].intercalate ((p.splitOn '/').foldl cleanPush []).reverse
  if p.getLast? = some '/' ∧ np ≠ ['/'] then np ++ ['/'] else np

theorem head_cleanPath (path : List Char) :
    (cleanPath path).head? = some '/' := by
  unfold cleanPath
  dsimp only
  generalize (if path.head? = some '/' then path else '/' :: path) = p
  split
  · rfl
  · rfl

/-! ## Patterns -/

inductive Segment where
  | lit (text : String)
  | wild (name : String)
  deriving DecidableEq, Repr

/-- The wildcards' values, if the pieces match. A wildcard takes any one piece
but the slash at the end. -/
def matchSegments : List Segment → List String → Option (List (String × String))
  | [], [] => some []
  | .lit text :: ps, seg :: segs =>
      if text = seg then matchSegments ps segs else none
  | .wild name :: ps, seg :: segs =>
      if seg = "/" then none
      else (matchSegments ps segs).map ((name, seg) :: ·)
  | _, _ => none

/-- No list of pieces matches both. -/
def patternsDisjoint : List Segment → List Segment → Bool
  | .lit text :: ps, .lit text' :: ps' => text ≠ text' || patternsDisjoint ps ps'
  | _ :: ps, _ :: ps' => patternsDisjoint ps ps'
  | [], [] => false
  | _, _ => true

theorem matchSegments_disjoint {ps ps' : List Segment} {segs : List String}
    (h : patternsDisjoint ps ps' = true) (hps : (matchSegments ps segs).isSome) :
    matchSegments ps' segs = none := by
  fun_induction patternsDisjoint ps ps' generalizing segs with
  | case1 text ps text' ps' ih =>
      cases segs with
      | nil => rfl
      | cons seg segs =>
          simp only [matchSegments] at hps ⊢
          split at hps
          · next htext =>
              split
              · next htext' =>
                  subst htext htext'
                  exact ih (by simpa using h) hps
              · rfl
          · cases hps
  | case2 p ps p' ps' hlit ih =>
      cases segs with
      | nil => cases p' <;> rfl
      | cons seg segs =>
          have hps' : (matchSegments ps segs).isSome := by
            cases p with
            | lit text =>
                simp only [matchSegments] at hps
                split at hps
                · exact hps
                · cases hps
            | wild name =>
                simp only [matchSegments] at hps
                split at hps
                · cases hps
                · simpa using hps
          have hnone := ih h hps'
          cases p' with
          | lit text' => simp [matchSegments, hnone]
          | wild name' => simp [matchSegments, hnone]
  | case3 => cases h
  | case4 ps ps' h₁ h₂ h₃ =>
      cases ps with
      | nil =>
          cases segs with
          | nil =>
              cases ps' with
              | nil => exact (h₃ rfl rfl).elim
              | cons p' ps' => cases p' <;> rfl
          | cons seg segs => simp [matchSegments] at hps
      | cons p ps =>
          cases ps' with
          | nil =>
              cases segs with
              | nil => cases p <;> simp [matchSegments] at hps
              | cons seg segs => rfl
          | cons p' ps' => exact (h₂ p ps p' ps' rfl rfl).elim

/-- A route of literals is only reached through its own decoded path. -/
theorem path_of_literals {texts : List String} {segs : List (List Char)}
    {d : List Char} (hslash : "/" ∉ texts)
    (hmatch : (matchSegments (texts.map .lit) (segments segs)).isSome)
    (hd : unescape (['/'].intercalate segs) = some d) :
    d = ['/'].intercalate (texts.map String.toList) := by
  fun_induction segments segs generalizing texts d with
  | case1 =>
      cases hd
      cases texts with
      | nil => rfl
      | cons text texts => simp [matchSegments] at hmatch
  | case2 last =>
      cases texts with
      | nil => simp [matchSegments] at hmatch
      | cons text texts =>
          cases texts with
          | cons text' texts => simp [matchSegments] at hmatch
          | nil =>
              have htext : text = if last = [] then "/" else pathUnescape last := by
                by_contra hne
                simp [matchSegments, hne] at hmatch
              rw [List.intercalate_singleton] at hd
              by_cases hlast : last = []
              · rw [if_pos hlast] at htext
                exact (hslash (by simp [htext])).elim
              · rw [if_neg hlast, pathUnescape_of_some hd] at htext
                simp [htext]
  | case3 seg segs hne ih =>
      cases texts with
      | nil => simp [matchSegments] at hmatch
      | cons text texts =>
          simp only [List.map_cons, matchSegments] at hmatch
          split at hmatch
          · next htext =>
              have hsegs : segs ≠ [] := fun h => hne h
              rw [List.intercalate_cons_of_ne_nil hsegs,
                List.append_assoc] at hd
              obtain ⟨da, db, hda, hdb, rfl⟩ := unescape_slash hd
              rw [pathUnescape_of_some hda] at htext
              have htail := ih (fun hmem => hslash (.tail _ hmem)) hmatch hdb
              have htexts : texts.map String.toList ≠ [] := by
                intro hnil
                rw [List.map_eq_nil_iff] at hnil
                subst hnil
                cases segs with
                | nil => exact hsegs rfl
                | cons s ss => cases ss <;> simp [segments, matchSegments] at hmatch
              rw [List.map_cons, List.intercalate_cons_of_ne_nil htexts,
                ← htail, htext, String.toList_ofList, List.append_assoc]
              rfl
          · cases hmatch

theorem URL.path_of_literals {url : URL} (texts : List String)
    (hroot : url.escapedPath.toList.head? = some '/') (hslash : "/" ∉ texts)
    (hmatch : (matchSegments (texts.map .lit)
      (segments (url.escapedPath.toList.tail.splitOn '/'))).isSome) :
    url.path.toList = '/' :: ['/'].intercalate (texts.map String.toList) := by
  have hdec := url.decodes
  obtain ⟨rest, hrest⟩ : ∃ rest, url.escapedPath.toList = '/' :: rest := by
    cases hl : url.escapedPath.toList with
    | nil => rw [hl] at hroot; cases hroot
    | cons c rest =>
        rw [hl] at hroot
        cases hroot
        exact ⟨rest, rfl⟩
  rw [hrest] at hdec hmatch
  rw [unescape_cons (by decide)] at hdec
  obtain ⟨d, hd, hpath⟩ := Option.map_eq_some_iff.mp hdec
  have hjoin : ['/'].intercalate (rest.splitOn '/') = rest :=
    List.intercalate_splitOn '/'
  rw [← hjoin] at hd
  rw [← hpath, Lib.path_of_literals hslash hmatch hd]

/-! ## The router -/

structure Route (H : Type u) where
  method : String
  pattern : List Segment
  handler : H

/-- Where a request goes. -/
inductive Routed (H : Type u) where
  | handler (h : H) (pathValues : List (String × String))
  | redirect
  | methodNotAllowed (allow : List String)
  | notFound
  | badRequest

section
variable {H : Type u}

def Route.matches? (r : Route H) (method : String) (segs : List String) :
    Option (H × List (String × String)) :=
  if r.method = method then
    (matchSegments r.pattern segs).map fun values => (r.handler, values)
  else none

/-- The route for a method. The table is searched in order; that is the
router's precedence when no two of its routes match one request. -/
def findRoute (routes : List (Route H)) (method : String)
    (segs : List String) : Option (H × List (String × String)) :=
  routes.findSome? fun r => r.matches? method segs

/-- `matchMethodAndPath`: a `GET` route serves `HEAD` as well. -/
def matchMethodAndPath (routes : List (Route H)) (method : String)
    (segs : List String) : Option (H × List (String × String)) :=
  match findRoute routes method segs with
  | some found => some found
  | none => if method = "HEAD" then findRoute routes "GET" segs else none

/-- The methods some route has for the pieces, in order. -/
def matchingMethods (routes : List (Route H)) (segs : List String) :
    List String :=
  let methods := (routes.filter fun r =>
    (matchSegments r.pattern segs).isSome).map Route.method
  let methods := if "GET" ∈ methods then "HEAD" :: methods else methods
  methods.dedup.mergeSort

/-- `ServeMux.ServeHTTP` up to the handler. A path that is not clean is
redirected to the clean one, unless the method is `CONNECT`. -/
def serveMux (routes : List (Route H)) (method : String) (url : URL) :
    Routed H :=
  let path := url.escapedPath.toList
  if url.escapedPath = "*" then .badRequest
  else if method ≠ "CONNECT" ∧ cleanPath path ≠ path then .redirect
  else
    let segs := segments (path.tail.splitOn '/')
    match matchMethodAndPath routes method segs with
    | some (h, values) => .handler h values
    | none =>
        match matchingMethods routes segs with
        | [] => .notFound
        | allow => .methodNotAllowed allow

/-- What a handler was reached through had nothing to clean. -/
theorem cleanPath_of_handler {routes : List (Route H)} {method : String}
    {url : URL} {h : H} {values : List (String × String)}
    (hmethod : method ≠ "CONNECT")
    (hserve : serveMux routes method url = .handler h values) :
    cleanPath url.escapedPath.toList = url.escapedPath.toList := by
  unfold serveMux at hserve
  dsimp only at hserve
  split at hserve
  · cases hserve
  · split at hserve
    · cases hserve
    · next hclean => exact not_not.mp fun hne => hclean ⟨hmethod, hne⟩

/-- What a request that reached a handler asked for. -/
theorem serveMux_handler {routes : List (Route H)} {method : String}
    {url : URL} {h : H} {values : List (String × String)}
    (hserve : serveMux routes method url = .handler h values) :
    ∃ r ∈ routes, r.handler = h ∧
      (r.method = method ∨ method = "HEAD" ∧ r.method = "GET") ∧
      matchSegments r.pattern
        (segments (url.escapedPath.toList.tail.splitOn '/')) = some values ∧
      (method ≠ "CONNECT" → url.escapedPath.toList.head? = some '/') := by
  have hfind : ∀ method segs, findRoute routes method segs = some (h, values) →
      ∃ r ∈ routes, r.handler = h ∧ r.method = method ∧
        matchSegments r.pattern segs = some values := by
    intro method segs hf
    obtain ⟨r, hr, hm⟩ := List.exists_of_findSome?_eq_some hf
    unfold Route.matches? at hm
    split at hm
    · next hmethod =>
        obtain ⟨v, hv, heq⟩ := Option.map_eq_some_iff.mp hm
        cases heq
        exact ⟨r, hr, rfl, hmethod, hv⟩
    · cases hm
  have hrooted : method ≠ "CONNECT" →
      url.escapedPath.toList.head? = some '/' := by
    intro hm
    rw [← cleanPath_of_handler hm hserve]
    exact head_cleanPath _
  unfold serveMux at hserve
  dsimp only at hserve
  split at hserve
  · cases hserve
  · split at hserve
    · cases hserve
    · split at hserve
      · next h' values' hmatch =>
          cases hserve
          unfold matchMethodAndPath at hmatch
          split at hmatch
          · next hf =>
              rw [hmatch] at hf
              obtain ⟨r, hr, hh, hm, hv⟩ := hfind _ _ hf
              exact ⟨r, hr, hh, .inl hm, hv, hrooted⟩
          · split at hmatch
            · next hhead =>
                obtain ⟨r, hr, hh, hm, hv⟩ := hfind _ _ hmatch
                exact ⟨r, hr, hh, .inr ⟨hhead, hm⟩, hv, hrooted⟩
            · cases hmatch
      · split at hserve <;> cases hserve

end

end Vexil.Lib
