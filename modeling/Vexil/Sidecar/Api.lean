import Vexil.Lib.JsonSyntax
import Vexil.Lib.PlainPath
import Vexil.Sidecar.FlagStore

/-!
# The sidecar's HTTP API

The routes of `sidecar/main.go` and what their handlers answer, down to the text
of the body. A request is a method and a URL; its answer depends on the store at
the moment it is handled, and for the list on the order in which the map is
ranged over.

`GET /flags/stream` and `GET /flags/{name}` match one path both. The router
takes the more specific pattern, which stands first in the table here.
-/

namespace Vexil.Sidecar

open Vexil.Lib

/-! ## The flag as JSON -/

/-- The members that the tags of `resolvedFlag` ask for; an empty description is
left out. -/
def ResolvedFlag.json (f : ResolvedFlag) : JsonValue :=
  .object ([(.ofString "name", .string (.ofString f.name)),
    (.ofString "type", .string (.ofString f.type)),
    (.ofString "value", .string (.ofString f.value)),
    (.ofString "disabled", .bool f.disabled)] ++
    if f.description = "" then []
    else [(.ofString "description", .string (.ofString f.description))])

/-- `json.NewEncoder(w).Encode(v)`. -/
def encodeBody (v : JsonValue) : List Char := Json.write v ++ ['\n']

/-! ## Responses -/

inductive Body where
  | text (cs : List Char)
  /-- The event stream, which does not end. -/
  | events

structure Response where
  status : Nat := 200
  contentType : String := ""
  body : Body := .text []

/-- `http.Error`. -/
def httpError (error : String) (code : Nat) : Response where
  status := code
  contentType := "text/plain; charset=utf-8"
  body := .text (error.toList ++ ['\n'])

/-! ## Handlers -/

/-- A handler, given the store and the values of the wildcards. -/
abbrev Handler := FlagStore → (String → String) → Response

/-- `GET /flags`, with the flags in the order of `order`. -/
def handleFlags (order : List ResolvedFlag) : Handler := fun _ _ =>
  { contentType := "application/json"
    body := .text (encodeBody (.array (order.map ResolvedFlag.json))) }

/-- `GET /flags/stream`. -/
def handleStream : Handler := fun _ _ =>
  { contentType := "text/event-stream", body := .events }

/-- `GET /flags/{name}`. -/
def handleName : Handler := fun s pathValue =>
  let name := pathValue "name"
  if name = "stream" then {}
  else
    match s.get name with
    | none => httpError "\x7b\"error\":\"flag not found\"\x7d" 404
    | some f =>
        { contentType := "application/json"
          body := .text (encodeBody f.json) }

/-- `GET /flags/{name}/value`. -/
def handleValue : Handler := fun s pathValue =>
  match s.get (pathValue "name") with
  | none => httpError "flag not found" 404
  | some f => { contentType := "text/plain", body := .text f.value.toList }

/-- `GET /healthz`. -/
def handleHealthz : Handler := fun _ _ => { body := .text "ok".toList }

/-! ## The server -/

/-- The routes, the more specific of two before the other. -/
def routes (order : List ResolvedFlag) : List (Route Handler) := [
  ⟨"GET", [.lit "flags"], handleFlags order⟩,
  ⟨"GET", [.lit "flags", .lit "stream"], handleStream⟩,
  ⟨"GET", [.lit "flags", .wild "name"], handleName⟩,
  ⟨"GET", [.lit "flags", .wild "name", .lit "value"], handleValue⟩,
  ⟨"GET", [.lit "healthz"], handleHealthz⟩]

/-- `Request.PathValue`. -/
def pathValue (values : List (String × String)) (name : String) : String :=
  (values.lookup name).getD ""

/-- The answer to a request. -/
def respond (order : List ResolvedFlag) (s : FlagStore) (method : String)
    (url : URL) : Response :=
  match serveMux (routes order) method url with
  | .handler h values => h s (pathValue values)
  | .redirect => { status := 301 }
  | .methodNotAllowed _ => httpError "Method Not Allowed" 405
  | .notFound => httpError "404 page not found" 404
  | .badRequest => { status := 400 }

/-- What `range` over the map gives. -/
def FlagStore.Ranges (s : FlagStore) (order : List ResolvedFlag) : Prop :=
  (order : Multiset ResolvedFlag) = s.all

/-! ## Which route is taken -/

/-- Every list of pieces that `p` matches is one that `p'` matches too. -/
def narrows : List Segment → List Segment → Bool
  | .lit text :: ps, .lit text' :: ps' => text = text' && narrows ps ps'
  | .lit text :: ps, .wild _ :: ps' => text ≠ "/" && narrows ps ps'
  | .wild _ :: ps, .wild _ :: ps' => narrows ps ps'
  | [], [] => true
  | _, _ => false

theorem matches_of_narrows {ps ps' : List Segment} {segs : List String}
    (h : narrows ps ps' = true) (hps : (matchSegments ps segs).isSome) :
    (matchSegments ps' segs).isSome := by
  fun_induction narrows ps ps' generalizing segs with
  | case1 text ps text' ps' ih =>
      simp only [Bool.and_eq_true, decide_eq_true_eq] at h
      obtain ⟨rfl, h⟩ := h
      cases segs with
      | nil => exact hps
      | cons seg segs =>
          simp only [matchSegments] at hps ⊢
          split at hps
          · next htext => rw [if_pos htext]; exact ih h hps
          · cases hps
  | case2 text ps name ps' ih =>
      simp only [Bool.and_eq_true, decide_eq_true_eq] at h
      obtain ⟨hslash, h⟩ := h
      cases segs with
      | nil => cases hps
      | cons seg segs =>
          simp only [matchSegments] at hps ⊢
          split at hps
          · next htext =>
              subst htext
              rw [if_neg hslash, Option.isSome_map]
              exact ih h hps
          · cases hps
  | case3 name ps name' ps' ih =>
      cases segs with
      | nil => cases hps
      | cons seg segs =>
          simp only [matchSegments] at hps ⊢
          split at hps
          · cases hps
          · next hslash =>
              rw [Option.isSome_map] at hps
              rw [if_neg hslash, Option.isSome_map]
              exact ih h hps
  | case4 => exact hps
  | case5 => cases h

/-- Of two routes that match one request the more specific one stands first, so
searching the table in its order is the router's precedence. -/
theorem routes_specific {order : List ResolvedFlag} :
    (routes order).Pairwise fun r r' =>
      patternsDisjoint r.pattern r'.pattern = true ∨
        narrows r.pattern r'.pattern = true :=
  of_decide_eq_true rfl

end Vexil.Sidecar
