import Mathlib.Data.List.TakeWhile
import Vexil.Lib.PlainPath
import Vexil.Server.Accounts
import Vexil.Web.ApiClient

/-!
# What a path leads back to

The console puts a name into a path and the server takes one out. The two are
the same exactly if the name is plain. Whatever ends, divides or decodes a path
is a way for it to lead to another name or to none, and nothing looks for it
when a user is created or a cluster is registered.
-/

namespace Vexil.Web

open Vexil.Lib Vexil.Kube Vexil.Server

/-! ## Plain names -/

/-- The characters that mean something in the path of a URL. -/
def special : List Char := ['/', '?', '#', '%']

/-- A name that stands for itself as a piece of a path. -/
structure Plain (name : String) : Prop where
  chars : ∀ c ∈ special, c ∉ name.toList
  dots : name ≠ "." ∧ name ≠ ".."

instance (name : String) : Decidable (Plain name) :=
  let := List.decidableBAll (fun c => c ∉ name.toList) special
  decidable_of_iff ((∀ c ∈ special, c ∉ name.toList) ∧ name ≠ "." ∧ name ≠ "..")
    ⟨fun h => ⟨h.1, h.2⟩, fun h => ⟨h.chars, h.dots⟩⟩

theorem Plain.cleanSegment {name : String} (h : Plain name) (hne : name ≠ "") :
    CleanSegment name.toList where
  nonempty hnil := hne (String.toList_eq_nil_iff.mp hnil)
  dot hdot := h.dots.1 (String.toList_inj.mp hdot)
  dots hdots := h.dots.2 (String.toList_inj.mp hdots)
  slash := h.chars '/' (by decide)

theorem Plain.pathUnescape {name : String} (h : Plain name) :
    pathUnescape name.toList = name := by
  rw [pathUnescape_plain (h.chars '%' (by decide)), String.ofList_toList]

/-! ## Cutting -/

theorem toList_cut_eq_iff (s : String) :
    (cut s).toList = s.toList ↔ '?' ∉ s.toList ∧ '#' ∉ s.toList := by
  rw [cut, String.toList_ofList, List.takeWhile_eq_self_iff]
  simp only [decide_eq_true_iff]
  constructor
  · exact fun h => ⟨fun hc => (h _ hc).1 rfl, fun hc => (h _ hc).2 rfl⟩
  · rintro ⟨hquery, hfragment⟩ c hc
    refine ⟨?_, ?_⟩
    · rintro rfl
      exact hquery hc
    · rintro rfl
      exact hfragment hc

theorem cut_isPrefix (s : String) : (cut s).toList <+: s.toList := by
  rw [cut, String.toList_ofList]
  exact List.takeWhile_prefix _

theorem cut_append {a : String} (ha : '?' ∉ a.toList ∧ '#' ∉ a.toList)
    (b : String) : (cut (a ++ b)).toList = a.toList ++ (cut b).toList := by
  have hall := (toList_cut_eq_iff a).mpr ha
  rw [cut, String.toList_ofList, List.takeWhile_eq_self_iff] at hall
  rw [cut, cut, String.toList_ofList, String.toList_ofList,
    String.toList_append, List.takeWhile_append_of_pos hall]

/-! ## The path of a resource -/

/-- The pieces before the name. -/
def before (collection : String) : List (List Char) :=
  ["api".toList, "v1".toList, collection.toList]

/-- The call names one resource of a collection. -/
def ApiCall.Names (c : ApiCall) (collection name : String) : Prop :=
  c.path = "/" ++ collection ++ "/" ++ name

section
variable {c : ApiCall} {collection name : String}

theorem mem_before (hplain : Plain collection) (hne : collection ≠ "")
    {seg : List Char} (h : seg ∈ before collection) :
    ∃ text, Plain text ∧ text ≠ "" ∧ seg = text.toList := by
  simp only [before, List.mem_cons, List.not_mem_nil, or_false] at h
  rcases h with rfl | rfl | rfl
  · exact ⟨"api", by decide, by decide, rfl⟩
  · exact ⟨"v1", by decide, by decide, rfl⟩
  · exact ⟨collection, hplain, hne, rfl⟩

theorem toList_urlPath (hplain : Plain collection)
    (hnames : c.Names collection name) :
    c.urlPath.toList = join (before collection ++ [(cut name).toList]) := by
  have hstart : apiBase ++ c.path =
      (apiBase ++ "/" ++ collection ++ "/") ++ name := by
    rw [hnames]
    simp only [String.append_assoc]
  have hquery := hplain.chars '?' (by decide)
  have hfragment := hplain.chars '#' (by decide)
  rw [ApiCall.urlPath, hstart, cut_append]
  · simp [join, before, apiBase, List.intercalate_cons_cons]
  · simp [apiBase, hquery, hfragment]

/-! ## From the path back to the name -/

/-- The collections that a name is looked up in. -/
def collections : List String := ["users", "clusters"]

theorem plain_of_collection (h : collection ∈ collections) :
    Plain collection ∧ collection ≠ "" := by
  simp only [collections, List.mem_cons, List.not_mem_nil, or_false] at h
  rcases h with rfl | rfl
  · exact ⟨by decide, by decide⟩
  · exact ⟨by decide, by decide⟩

theorem dots_not_clean : ∀ collection ∈ collections, ∀ name ∈ [".", ".."],
    cleanPath (join (before collection ++ [name.toList])) ≠
      join (before collection ++ [name.toList]) := by
  decide

/-- The path decodes, and so does its last part. -/
theorem unescape_of_path {url : URL} (hplain : Plain collection)
    (hurl : url.escapedPath = c.urlPath) (hnames : c.Names collection name) :
    ∃ d, unescape (cut name).toList = some d := by
  have hdecodes := url.decodes
  rw [hurl, toList_urlPath hplain hnames] at hdecodes
  have hstart : join (before collection ++ [(cut name).toList]) =
      ("/api/v1/" ++ collection ++ "/").toList ++ (cut name).toList := by
    simp [join, before, List.intercalate_cons_cons]
  have hpercent : '%' ∉ ("/api/v1/" ++ collection ++ "/").toList := by
    simp [hplain.chars '%' (by decide)]
  rw [hstart, unescape_append hpercent] at hdecodes
  obtain ⟨d, hd, _⟩ := Option.map_eq_some_iff.mp hdecodes
  exact ⟨d, hd⟩

theorem splitOn_path {rest : List Char} (hplain : Plain collection) :
    (join (before collection ++ [rest])).tail.splitOn '/' =
      before collection ++ rest.splitOn '/' := by
  have hslash := hplain.chars '/' (by decide)
  have htail : (join (before collection ++ [rest])).tail =
      "api".toList ++ '/' :: ("v1".toList ++ '/' ::
        (collection.toList ++ '/' :: rest)) := by
    simp [join, Web.before, List.intercalate_cons_cons]
  rw [htail, List.splitOn_append_cons_self_of_not_mem (by decide),
    List.splitOn_append_cons_self_of_not_mem (by decide),
    List.splitOn_append_cons_self_of_not_mem hslash]
  rfl

/-- A name that is as long as one of the pieces of its path lost nothing. -/
theorem eq_of_piece {p : List Char} (hp : p ∈ (cut name).toList.splitOn '/')
    (hname : name = Lib.pathUnescape p) :
    p = name.toList ∧ (cut name).toList = name.toList := by
  have hinfix := infix_of_mem_splitOn hp
  have hdecoded := length_pathUnescape p
  rw [← hname] at hdecoded
  have hpiece := hinfix.length_le
  have hcut := (cut_isPrefix name).length_le
  have hlast : p = (cut name).toList := hinfix.eq_of_length (by omega)
  have hfirst : (cut name).toList = name.toList :=
    (cut_isPrefix name).eq_of_length (by omega)
  exact ⟨hlast.trans hfirst, hfirst⟩

variable [Apimachinery] [Bcrypt]

omit [Apimachinery] [Bcrypt] in
/-- What a path leads back to is plain, if that is where it came from. -/
theorem plain_of_piece (hcoll : collection ∈ collections) {p : List Char}
    (hp : p ∈
      (join (before collection ++ [(cut name).toList])).tail.splitOn '/')
    (hname : name = pathUnescape p)
    (hdecodes : ∃ d, unescape (cut name).toList = some d)
    (hclean : cleanPath (join (before collection ++ [(cut name).toList])) =
      join (before collection ++ [(cut name).toList])) : Plain name := by
  obtain ⟨hplain, hne⟩ := plain_of_collection hcoll
  rw [splitOn_path hplain, List.mem_append] at hp
  rcases hp with hp | hp
  · obtain ⟨text, htext, _, rfl⟩ := mem_before hplain hne hp
    rw [hname, htext.pathUnescape]
    exact htext
  · obtain ⟨rfl, hcut⟩ := eq_of_piece hp hname
    rw [hcut] at hdecodes hclean
    obtain ⟨d, hd⟩ := hdecodes
    rw [pathUnescape_of_some hd, ← String.toList_inj,
      String.toList_ofList] at hname
    obtain ⟨hquery, hfragment⟩ := (toList_cut_eq_iff name).mp hcut
    refine ⟨?_, fun hdot => ?_, fun hdots => ?_⟩
    · have hslash := (of_mem_splitOn _ hp).1
      have hpercent := (length_unescape hd).2 (by rw [hname])
      intro x hx
      simp only [special, List.mem_cons, List.not_mem_nil, or_false] at hx
      rcases hx with rfl | rfl | rfl | rfl
      · exact hslash
      · exact hquery
      · exact hfragment
      · exact hpercent
    · exact dots_not_clean collection hcoll name (by simp [hdot]) hclean
    · exact dots_not_clean collection hcoll name (by simp [hdots]) hclean

omit [Apimachinery] [Bcrypt] in
theorem mem_of_pathValue {values : List (String × String)} {wild v : String}
    (h : pathValue values wild = v) (hne : v ≠ "") : (wild, v) ∈ values := by
  unfold pathValue at h
  cases hlookup : values.lookup wild with
  | none =>
      rw [hlookup] at h
      exact absurd h.symm hne
  | some v' =>
      rw [hlookup] at h
      obtain rfl : v' = v := h
      obtain ⟨pre, post, rfl, _⟩ := List.lookup_eq_some_iff.mp hlookup
      simp

/-- What comes back as it was is plain. -/
theorem plain_of_reaches {h : Handler} {wild : String}
    (hcoll : collection ∈ collections) (hnames : c.Names collection name)
    (hmethod : c.method ≠ "CONNECT") (hne : name ≠ "")
    (hreaches : c.Reaches h wild name) : Plain name := by
  obtain ⟨hplain, _⟩ := plain_of_collection hcoll
  obtain ⟨url, values, hurl, hserve, hvalue⟩ := hreaches
  have hclean := cleanPath_of_handler hmethod hserve
  obtain ⟨_, _, _, _, hmatch, _⟩ := serveMux_handler hserve
  obtain ⟨hseg, hslash⟩ := mem_of_matchSegments hmatch
    (mem_of_pathValue hvalue hne)
  obtain ⟨p, hp, hname⟩ := mem_segments hseg hslash
  rw [hurl, toList_urlPath hplain hnames] at hp hclean
  exact plain_of_piece hcoll hp hname (unescape_of_path hplain hurl hnames)
    hclean

omit [Apimachinery] [Bcrypt] in
/-- The pieces of a plain path, as a route reads them. -/
theorem match_plain (hplain : Plain collection) (hname : Plain name)
    (wild : String) :
    matchSegments (api [.lit collection, .wild wild])
      ((before collection ++ [name.toList]).map pathUnescape) =
        some [(wild, name)] := by
  have hapi : pathUnescape "api".toList = "api" := by decide
  have hversion : pathUnescape "v1".toList = "v1" := by decide
  have hslash : name ≠ "/" := by
    rintro rfl
    exact hname.chars '/' (by decide) (by decide)
  simp only [before, List.cons_append, List.nil_append, List.map_cons,
    List.map_nil, hapi, hversion, hplain.pathUnescape, hname.pathUnescape, api,
    matchSegments, if_true, if_neg hslash, Option.map_some]

/-- A plain name comes back as it was. -/
theorem reaches_of_plain {h : Handler} {wild : String}
    (hcoll : collection ∈ collections) (hnames : c.Names collection name)
    (hroute : ⟨c.method, api [.lit collection, .wild wild], h⟩ ∈
      (routes : List (Route Handler)))
    (hne : name ≠ "") (hname : Plain name) : c.Reaches h wild name := by
  obtain ⟨hplain, hcollne⟩ := plain_of_collection hcoll
  have hcut : (cut name).toList = name.toList :=
    (toList_cut_eq_iff name).mpr
      ⟨hname.chars '?' (by decide), hname.chars '#' (by decide)⟩
  have hpath := toList_urlPath hplain hnames
  rw [hcut] at hpath
  have hclean : ∀ seg ∈ before collection ++ [name.toList],
      CleanSegment seg := by
    intro seg hseg
    rcases List.mem_append.mp hseg with hseg | hseg
    · obtain ⟨text, htext, htextne, rfl⟩ := mem_before hplain hcollne hseg
      exact htext.cleanSegment htextne
    · rw [List.mem_singleton.mp hseg]
      exact hname.cleanSegment hne
  have hpercent : '%' ∉ c.urlPath.toList := by
    rw [hpath]
    simp [join, before, List.intercalate_cons_cons,
      hplain.chars '%' (by decide), hname.chars '%' (by decide)]
  obtain ⟨url, hurl⟩ : ∃ url : URL, url.escapedPath = c.urlPath :=
    ⟨⟨c.urlPath, c.urlPath, unescape_plain hpercent⟩, rfl⟩
  rw [← hurl] at hpath
  have hserve := serveMux_of_mem routes_exclusive hroute (by simp [before])
    hclean hpath (match_plain hplain hname wild)
  exact ⟨url, _, hurl, hserve, by simp [pathValue]⟩

/-- A path leads back to one name. -/
theorem ApiCall.Reaches.unique {h h' : Handler} {wild v v' : String}
    (hv : c.Reaches h wild v) (hv' : c.Reaches h' wild v') : v = v' := by
  obtain ⟨url, values, hurl, hserve, rfl⟩ := hv
  obtain ⟨url', values', hurl', hserve', rfl⟩ := hv'
  have hsame : serveMux routes c.method url =
      serveMux routes c.method url' := by
    unfold serveMux
    rw [hurl, hurl']
  rw [hserve, hserve'] at hsame
  cases hsame
  rfl

end

/-! ## Users and clusters -/

section
variable [Apimachinery] [Bcrypt] [ClientGo]

/-- The handler has made a user of this name. -/
def UserAccepted (username : String) : Prop :=
  ∃ (r : Request) (ctx : UserContext) (values : String → String)
    (req : CreateUserRequest) (s s' : ServerState) (tr : List ServerEvent)
    (resp : Response), r.body.createUser = some req ∧ req.username = username ∧
      Completes ServerStep (AuthHandler.createUser r ctx values) s tr resp s' ∧
      resp.status = 201

/-- The handler has registered a cluster with this id. -/
def ClusterAccepted (id : String) : Prop :=
  ∃ (r : Request) (ctx : UserContext) (values : String → String)
    (req : RegisterClusterRequest) (s s' : ServerState)
    (tr : List ServerEvent) (resp : Response),
      r.body.registerCluster = some req ∧ req.id = id ∧
      Completes ServerStep (ClusterHandler.register r ctx values) s tr resp s' ∧
      resp.status = 201

/-- The paths of a user lead back to the user. -/
structure UserPaths (username : String) : Prop where
  update : (usersApi.update username).Reaches AuthHandler.updateUser
    "username" username
  delete : (usersApi.delete username).Reaches
    (requireRole adminOnly AuthHandler.deleteUser) "username" username

/-- The paths of a cluster lead back to the cluster. -/
structure ClusterPaths (id : String) : Prop where
  get : (clustersApi.get id).Reaches ClusterHandler.get "id" id
  remove : (clustersApi.remove id).Reaches
    (requireRole adminOnly ClusterHandler.remove) "id" id

omit [Apimachinery] in
theorem UserAccepted.ne_empty {username : String} (h : UserAccepted username) :
    username ≠ "" := by
  obtain ⟨r, ctx, values, req, s, s', tr, resp, hbody, rfl, h, hstatus⟩ := h
  unfold AuthHandler.createUser at h
  split at h
  · obtain ⟨_, rfl, _⟩ := completes_ret.mp h
    cases hstatus
  · rw [hbody] at h
    dsimp only at h
    split at h
    · obtain ⟨_, rfl, _⟩ := completes_ret.mp h
      cases hstatus
    · next hfilled => exact fun hempty => hfilled (.inl hempty)

omit [Apimachinery] in
theorem ClusterAccepted.ne_empty {id : String} (h : ClusterAccepted id) :
    id ≠ "" := by
  obtain ⟨r, ctx, values, req, s, s', tr, resp, hbody, rfl, h, hstatus⟩ := h
  unfold ClusterHandler.register at h
  rw [hbody] at h
  dsimp only at h
  split at h
  · obtain ⟨_, rfl, _⟩ := completes_ret.mp h
    cases hstatus
  · next hfilled => exact fun hempty => hfilled (.inl hempty)

omit [Apimachinery] [Bcrypt] [ClientGo] in
theorem names_user (method username : String) :
    ApiCall.Names ⟨method, "/users/" ++ username⟩ "users" username := by
  have hstart : "/users/" = "/" ++ "users" ++ "/" := by decide
  exact congrArg (· ++ username) hstart

omit [Apimachinery] [Bcrypt] [ClientGo] in
theorem names_cluster (method id : String) :
    ApiCall.Names ⟨method, "/clusters/" ++ id⟩ "clusters" id := by
  have hstart : "/clusters/" = "/" ++ "clusters" ++ "/" := by decide
  exact congrArg (· ++ id) hstart

omit [ClientGo] in
theorem mem_routes_updateUser : ⟨"PUT", api [.lit "users", .wild "username"],
    AuthHandler.updateUser⟩ ∈ (routes : List (Route Handler)) := by
  simp [routes]

omit [ClientGo] in
theorem mem_routes_deleteUser : ⟨"DELETE",
    api [.lit "users", .wild "username"],
    requireRole adminOnly AuthHandler.deleteUser⟩ ∈
      (routes : List (Route Handler)) := by
  simp [routes]

omit [ClientGo] in
theorem mem_routes_getCluster : ⟨"GET", api [.lit "clusters", .wild "id"],
    ClusterHandler.get⟩ ∈ (routes : List (Route Handler)) := by
  simp [routes]

omit [ClientGo] in
theorem mem_routes_removeCluster : ⟨"DELETE",
    api [.lit "clusters", .wild "id"],
    requireRole adminOnly ClusterHandler.remove⟩ ∈
      (routes : List (Route Handler)) := by
  simp [routes]

/-- What the handlers accept comes back from its paths exactly if it is
plain. -/
theorem resource_paths_iff :
    (∀ username, UserAccepted username →
      (UserPaths username ↔ Plain username)) ∧
    ∀ id, ClusterAccepted id → (ClusterPaths id ↔ Plain id) := by
  refine ⟨fun username haccepted => ?_, fun id haccepted => ?_⟩
  · have hne := haccepted.ne_empty
    have hcoll : "users" ∈ collections := by decide
    have hmethod : "PUT" ≠ "CONNECT" := by decide
    constructor
    · intro h
      exact plain_of_reaches hcoll (names_user _ _) hmethod hne h.update
    · intro h
      constructor
      · exact reaches_of_plain hcoll (names_user _ _)
          mem_routes_updateUser hne h
      · exact reaches_of_plain hcoll (names_user _ _)
          mem_routes_deleteUser hne h
  · have hne := haccepted.ne_empty
    have hcoll : "clusters" ∈ collections := by decide
    have hmethod : "GET" ≠ "CONNECT" := by decide
    constructor
    · intro h
      exact plain_of_reaches hcoll (names_cluster _ _) hmethod hne h.get
    · intro h
      constructor
      · exact reaches_of_plain hcoll (names_cluster _ _)
          mem_routes_getCluster hne h
      · exact reaches_of_plain hcoll (names_cluster _ _)
          mem_routes_removeCluster hne h

end

/-! A user and a cluster of one name are made. -/

def nameRequest (name : String) : Request where
  method := "POST"
  url := ⟨"/name", "/name", by decide +kernel⟩
  body := {
    createUser := some ⟨name, "secret", "viewer"⟩
    registerCluster := some {
      id := name, displayName := name, apiServer := name, kubeconfig := name } }

def namelessServer : ServerState where
  store := .new
  clusters := ⟨∅⟩
  kube _ := {}
  now := 0

/-- One of the two handlers, asked by an administrator. -/
def nameRun (handler : [Bcrypt] → Handler) (name : String) :
    List ServerEvent × Response × ServerState :=
  letI := plainBcrypt
  letI := anyHost
  (handler (nameRequest name) ⟨"root", "admin"⟩ fun _ => "").exec
    (ServerCall.serve {}) namelessServer

theorem userAccepted_of_run {name : String}
    (h : (nameRun AuthHandler.createUser name).2.1.status = 201) :
    letI := plainBcrypt
    letI := anyHost
    UserAccepted name :=
  letI := plainBcrypt
  letI := anyHost
  ⟨nameRequest name, _, _, _, _, _, _, _, rfl, rfl, completes_of_exec rfl, h⟩

theorem clusterAccepted_of_run {name : String}
    (h : (nameRun ClusterHandler.register name).2.1.status = 201) :
    letI := plainBcrypt
    letI := anyHost
    ClusterAccepted name :=
  letI := plainBcrypt
  letI := anyHost
  ⟨nameRequest name, _, _, _, _, _, _, _, rfl, rfl, completes_of_exec rfl, h⟩

theorem resource_paths_iff_sample :
    letI := labelSelectors
    letI := plainBcrypt
    UserPaths "bob" ∧ ClusterPaths "eu" :=
  letI := labelSelectors
  letI := plainBcrypt
  letI := anyHost
  ⟨(resource_paths_iff.1 "bob" (userAccepted_of_run (by decide +kernel))).mpr
      (by decide),
    (resource_paths_iff.2 "eu"
      (clusterAccepted_of_run (by decide +kernel))).mpr (by decide)⟩

/-- To delete `bob?x` is to delete `bob`. -/
theorem query_deletes_another :
    letI := labelSelectors
    letI := plainBcrypt
    letI := anyHost
    UserAccepted "bob" ∧ UserAccepted "bob?x" ∧ ¬ UserPaths "bob?x" ∧
      (usersApi.delete "bob?x").Reaches
        (requireRole adminOnly AuthHandler.deleteUser) "username" "bob" := by
  let := labelSelectors
  let := plainBcrypt
  let := anyHost
  have hpath : (usersApi.delete "bob?x").urlPath =
      (usersApi.delete "bob").urlPath := by decide
  have hbob : (usersApi.delete "bob").Reaches
      (requireRole adminOnly AuthHandler.deleteUser) "username" "bob" :=
    reaches_of_plain (by decide) (names_user _ _) mem_routes_deleteUser
      (by decide) (by decide)
  have hreaches : (usersApi.delete "bob?x").Reaches
      (requireRole adminOnly AuthHandler.deleteUser) "username" "bob" := by
    unfold ApiCall.Reaches
    rw [hpath]
    exact hbob
  refine ⟨userAccepted_of_run (by decide +kernel),
    userAccepted_of_run (by decide +kernel), fun h => ?_, hreaches⟩
  exact absurd (h.delete.unique hreaches) (by decide)

end Vexil.Web
