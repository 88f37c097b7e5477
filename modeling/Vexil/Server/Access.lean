import Vexil.Server.Routes

/-!
# Which calls a request may make

The calls that change users, sessions, flags or the registry are made in ten
places. `Allowed` says of each what must have happened earlier in the same
request: which route it took, and in whose name the store answered for its
token. `serve_along` is that every call the server makes for any request is
allowed in this sense; it follows the code once, handler by handler.

The delicate point is the two requests that `Auth` lets pass without a token.
They reach the router in the escaped form of their path, and it is
`path_of_literals` that keeps them away from `Logout`, the one route without a
role or a context check.
-/

namespace Vexil.Server

open Vexil.Lib Vexil.Kube

/-! ## What is asked of a call -/

/-- The request is for this route. -/
def Goes (req : Request) (method : String) (pattern : List Segment) : Prop :=
  req.method = method ∧ (matchSegments pattern
    (segments (req.url.escapedPath.toList.tail.splitOn '/'))).isSome

/-- The store has answered for the request's own token. -/
def Session (req : Request) (h : List ServerEvent) (username role : String) :
    Prop :=
  ⟨.store (.getSession (extractBearerToken req)), some (username, role)⟩ ∈ h

/-- The request's token is a session with one of these roles. -/
def HasRole (req : Request) (h : List ServerEvent) (roles : List String) :
    Prop := ∃ username, ∃ role ∈ roles, Session req h username role

/-- The calls that leave users, sessions, flags and the registry alone. -/
def ServerCall.isQuiet : ServerCall → Bool
  | .store c =>
      match c with
      | .recordAudit _ | .listAuditEvents _ | .getUserByUsername _
      | .listUsers | .getSession _ => true
      | _ => false
  | .clusters c =>
      match c with
      | .addCluster _ _ _ | .removeCluster _ => false
      | _ => true
  | .kube _ c => c.isRead
  | .now | .randRead _ | .generateFromPassword _ => true

def usersPath : List Segment := api [.lit "users"]

def userPath : List Segment := api [.lit "users", .wild "username"]

def flagsPath : List Segment := api [.lit "flags"]

def flagPath : List Segment :=
  api [.lit "flags", .wild "namespace", .wild "name"]

def togglePath : List Segment :=
  api [.lit "flags", .wild "namespace", .wild "name", .lit "toggle"]

def clustersPath : List Segment := api [.lit "clusters"]

def clusterPath : List Segment := api [.lit "clusters", .wild "id"]

def loginPath : List Segment := api [.lit "auth", .lit "login"]

def logoutPath : List Segment := api [.lit "auth", .lit "logout"]

section
variable [Bcrypt]

/-- The credentials of the request are those of a user the store has answered
with. -/
def LoginFound (req : Request) (h : List ServerEvent) (user : User) : Prop :=
  ∃ body, req.body.login = some body ∧
    ⟨.store (.getUserByUsername body.username), .ok user⟩ ∈ h ∧
    Bcrypt.compareHashAndPassword user.passwordHash body.password = true

/-- What must have happened in a request before it makes a call. -/
def Allowed (req : Request) (h : List ServerEvent) : ServerCall → Prop
  | .store (.createUser _) =>
      Goes req "POST" usersPath ∧ HasRole req h adminOnly
  | .store (.deleteUser _) =>
      Goes req "DELETE" userPath ∧ HasRole req h adminOnly
  | .store (.updateUserRole _ _) =>
      Goes req "PUT" userPath ∧ HasRole req h adminOnly
  | .store (.updatePassword name _) =>
      Goes req "PUT" userPath ∧ ∃ username role,
        Session req h username role ∧ (role = "admin" ∨ username = name)
  | .store (.createSession _ username role _) =>
      Goes req "POST" loginPath ∧ ∃ user, LoginFound req h user ∧
        username = user.username ∧ role = user.role
  | .store (.deleteSession token) =>
      Goes req "POST" logoutPath ∧ token = extractBearerToken req ∧
        ∃ username role, Session req h username role
  | .clusters (.addCluster _ _ _) =>
      Goes req "POST" clustersPath ∧ HasRole req h adminOnly
  | .clusters (.removeCluster _) =>
      Goes req "DELETE" clusterPath ∧ HasRole req h adminOnly
  | .kube _ (.createFlag _) =>
      Goes req "POST" flagsPath ∧ HasRole req h editorUp
  | .kube _ (.updateFlag _) =>
      (Goes req "PUT" flagPath ∨ Goes req "POST" togglePath) ∧
        HasRole req h editorUp
  | .kube _ (.deleteFlag _) =>
      Goes req "DELETE" flagPath ∧ HasRole req h adminOnly
  | c => c.isQuiet = true

theorem allowed_of_quiet {req : Request} {h : List ServerEvent}
    {c : ServerCall} (hc : c.isQuiet = true) : Allowed req h c := by
  cases c with
  | store c => cases c <;> first | exact hc | cases hc
  | clusters c => cases c <;> first | exact hc | cases hc
  | kube client c => cases c <;> first | exact hc | cases hc
  | now | randRead n | generateFromPassword password => rfl

/-- A program that only makes quiet calls. -/
theorem along_of_quiet {req : Request} {h : List ServerEvent} {α : Type}
    {p : ServerProg α} (hp : p.Calls fun c => c.isQuiet = true) :
    p.Along (Allowed req) h :=
  (Prog.along_const.mp hp).mono fun _ _ hc => allowed_of_quiet hc

end

/-! ## Quiet calls -/

/-- The four tables are as they were. -/
structure Unchanged (s s' : ServerState) : Prop where
  users : s'.store.users = s.store.users
  sessions : s'.store.sessions = s.store.sessions
  flags : ∀ client, (s'.kube client).flags = (s.kube client).flags
  clusters : s'.clusters = s.clusters

theorem unchanged_of_quiet [Bcrypt] [ClientGo] {s s' : ServerState} {e : ServerEvent}
    (h : ServerStep s e s') (hq : e.call.isQuiet = true) : Unchanged s s' := by
  obtain ⟨c, r⟩ := e
  cases c with
  | store c =>
      obtain ⟨uuid, _, rfl⟩ := h
      cases c with
      | recordAudit | listAuditEvents | getUserByUsername | listUsers
      | getSession => exact ⟨rfl, rfl, fun _ => rfl, rfl⟩
      | _ => cases hq
  | clusters c =>
      obtain ⟨fault, order, _, _, rfl⟩ := h
      cases c with
      | getClient | getClusterInfo | clusterIDs | listClusters =>
          exact ⟨rfl, rfl, fun _ => rfl, rfl⟩
      | _ => cases hq
  | kube client c =>
      obtain ⟨k, hk, rfl⟩ := h
      have hread : c.isRead = true := hq
      have hsame : k = s.kube client := by
        rcases hk.cases with ⟨_, hsame⟩ | hk
        · exact hsame
        · exact hk.of_read hread
      rw [hsame, setKube_self]
      exact ⟨rfl, rfl, fun _ => rfl, rfl⟩
  | now | randRead n | generateFromPassword password =>
      obtain ⟨_, rfl⟩ := h
      exact ⟨rfl, rfl, fun _ => rfl, rfl⟩

/-- The store answers with the user it has under the name. -/
theorem getUser_serverStep [Bcrypt] [ClientGo] {s s' : ServerState}
    {name : String} {user : User}
    (h : ServerStep s ⟨.store (.getUserByUsername name), .ok user⟩ s') :
    s.store.users.lookup name = some user ∧ s' = s := by
  obtain ⟨uuid, hr, rfl⟩ := h
  refine ⟨?_, rfl⟩
  have hr : s.store.getUserByUsername name = .ok user := hr
  unfold MemoryStore.getUserByUsername at hr
  split at hr
  · cases hr
  · next u hu =>
      cases hr
      exact hu

/-! ## Handlers that only read -/

abbrev Quiet {α : Type} (p : ServerProg α) : Prop :=
  p.Calls fun c => c.isQuiet = true

abbrev Reads {α : Type} (p : KubeProg α) : Prop :=
  p.Calls fun c => c.isRead = true

theorem withClient_quiet {id notFound : String}
    {k : Endpoint → ServerProg Response} (hk : ∀ client, Quiet (k client)) :
    Quiet (withClient id notFound k) := by
  refine Prog.calls_call.mpr ⟨rfl, fun r => ?_⟩
  cases r with
  | error err => trivial
  | ok client => exact hk client

theorem onCluster_quiet {α : Type} {client : Endpoint} {p : KubeProg α}
    (hp : Reads p) : Quiet (onCluster client p) :=
  Prog.Calls.embed (f := ServerCall.kube client)
    (P := fun c => c.isQuiet = true) hp

theorem me_quiet (req : Request) (ctx : UserContext)
    (pathValue : String → String) : Quiet (AuthHandler.me req ctx pathValue) := by
  unfold AuthHandler.me
  dsimp only
  split
  · trivial
  · refine Prog.calls_call.mpr ⟨rfl, fun r => ?_⟩
    cases r with
    | none => trivial
    | some sess => trivial

theorem listUsers_quiet (req : Request) (ctx : UserContext)
    (pathValue : String → String) :
    Quiet (AuthHandler.listUsers req ctx pathValue) := by
  refine Prog.calls_call.mpr ⟨rfl, fun r => ?_⟩
  cases r with
  | error err => trivial
  | ok users => trivial

theorem withFlag_quiet {req : Request} {pathValue : String → String}
    {k : Endpoint → FeatureFlag → ServerProg Response}
    (hk : ∀ client flag, Quiet (k client flag)) :
    Quiet (FlagHandler.withFlag req pathValue k) := by
  unfold FlagHandler.withFlag
  dsimp only
  split
  · trivial
  · refine withClient_quiet fun client => Prog.calls_call.mpr ⟨rfl, fun r => ?_⟩
    cases r with
    | error err => trivial
    | ok flag => exact hk client flag

theorem listFlags_quiet (req : Request) (ctx : UserContext)
    (pathValue : String → String) :
    Quiet (FlagHandler.list req ctx pathValue) := by
  have hloop : ∀ clusterID ns ids,
      Quiet (FlagHandler.listClusters clusterID ns ids) := by
    intro clusterID ns ids
    induction ids with
    | nil => trivial
    | cons cid rest ih =>
        rw [FlagHandler.listClusters]
        split
        · exact ih
        · refine Prog.calls_call.mpr ⟨rfl, fun r => ?_⟩
          cases r with
          | error err => exact ih
          | ok client =>
              refine Prog.calls_call.mpr ⟨rfl, fun r => ?_⟩
              cases r with
              | error err => exact ih
              | ok items => exact ih.map
  exact Prog.calls_call.mpr ⟨rfl, fun ids => (hloop _ _ ids).map⟩

theorem scanNamespace_reads (clusterID : String) (managed : List String)
    (ns : String) : Reads (scanNamespace clusterID managed ns) := by
  refine Prog.Calls.bind ?_ fun managed => Prog.Calls.map ?_
  · refine Prog.calls_call.mpr ⟨rfl, fun r => ?_⟩
    cases r with
    | error err => trivial
    | ok cms => trivial
  · refine Prog.calls_call.mpr ⟨rfl, fun r => ?_⟩
    cases r with
    | error err => trivial
    | ok deployments =>
        refine Prog.calls_call.mpr ⟨rfl, fun r => ?_⟩
        cases r with
        | error err => trivial
        | ok statefulsets =>
            refine Prog.calls_call.mpr ⟨rfl, fun r => ?_⟩
            cases r with
            | error err => trivial
            | ok daemonsets => trivial

theorem scanNamespaces_reads (clusterID : String) (managed nss : List String) :
    Reads (scanNamespaces clusterID managed nss) := by
  induction nss generalizing managed with
  | nil => trivial
  | cons ns rest ih =>
      rw [scanNamespaces]
      split
      · exact ih managed
      · exact (scanNamespace_reads clusterID managed ns).bind fun r =>
          (ih r.2).map

namespace WorkloadHandler

theorem namespacesWithFlags_reads : Reads namespacesWithFlags := by
  refine Prog.calls_call.mpr ⟨rfl, fun r => ?_⟩
  cases r with
  | error err => trivial
  | ok items => trivial

section
variable [Apimachinery]

theorem enrichWithMatchingFlags_reads (workloads : List DiscoveredWorkload) :
    Reads (enrichWithMatchingFlags workloads) := by
  have hloop : ∀ nss, Reads (flagSelectors nss) := by
    intro nss
    induction nss with
    | nil => trivial
    | cons ns rest ih =>
        refine Prog.calls_call.mpr ⟨rfl, fun r => ?_⟩
        cases r with
        | error err => exact ih
        | ok items => exact ih.map
  exact (hloop _).map

theorem list_quiet (req : Request) (ctx : UserContext)
    (pathValue : String → String) : Quiet (list req ctx pathValue) := by
  refine withClient_quiet fun client => onCluster_quiet ?_
  refine Prog.Calls.bind namespacesWithFlags_reads.map fun allowed => ?_
  dsimp only
  split
  · exact (scanNamespaces_reads _ [] allowed).bind fun workloads =>
      (enrichWithMatchingFlags_reads workloads).map
  · split
    · trivial
    · refine (scanNamespace_reads _ [] _).bind fun r => ?_
      obtain ⟨r, managed⟩ := r
      cases r with
      | error err => trivial
      | ok workloads => exact (enrichWithMatchingFlags_reads workloads).map

end

theorem listNamespaces_quiet (req : Request) (ctx : UserContext)
    (pathValue : String → String) : Quiet (listNamespaces req ctx pathValue) :=
  withClient_quiet fun _ => onCluster_quiet namespacesWithFlags_reads.map

theorem get_quiet (req : Request) (ctx : UserContext)
    (pathValue : String → String) : Quiet (get req ctx pathValue) := by
  refine withClient_quiet fun client => onCluster_quiet ?_
  refine Prog.Calls.bind namespacesWithFlags_reads.map fun allowed => ?_
  split
  · trivial
  · exact (scanNamespace_reads _ [] _).map

end WorkloadHandler

theorem listAudit_quiet (req : Request) (ctx : UserContext)
    (pathValue : String → String) : Quiet (listAudit req ctx pathValue) := by
  refine Prog.calls_call.mpr ⟨rfl, fun r => ?_⟩
  cases r with
  | error err => trivial
  | ok events => trivial

theorem getCluster_quiet (req : Request) (ctx : UserContext)
    (pathValue : String → String) :
    Quiet (ClusterHandler.get req ctx pathValue) := by
  refine Prog.calls_call.mpr ⟨rfl, fun r => ?_⟩
  cases r with
  | error err => trivial
  | ok info => trivial

/-! ## Handlers that write

Each is given what its route and the context have established, and passes it on
to the one call that needs it, past the calls in between. -/

theorem Session.past {req : Request} {h tr : List ServerEvent}
    {username role : String} (hs : Session req h username role) :
    Session req (h ++ tr) username role := List.mem_append_left tr hs

theorem HasRole.past {req : Request} {h tr : List ServerEvent}
    {roles : List String} (hr : HasRole req h roles) :
    HasRole req (h ++ tr) roles := by
  obtain ⟨username, role, hrole, hs⟩ := hr
  exact ⟨username, role, hrole, hs.past⟩

section
variable [Bcrypt] {h : List ServerEvent}

theorem login_along (req : Request) (ctx : UserContext)
    (pathValue : String → String) (hg : Goes req "POST" loginPath) :
    (AuthHandler.login req ctx pathValue).Along (Allowed req) h := by
  unfold AuthHandler.login
  split
  · trivial
  · next body hbody =>
      split
      · trivial
      · refine ⟨rfl, fun user? => ?_⟩
        cases user? with
        | error err => trivial
        | ok user =>
            dsimp only
            split
            · next hcompare =>
                refine ⟨rfl, fun token? => ?_⟩
                cases token? with
                | error err => trivial
                | ok bytes =>
                    refine ⟨rfl, fun now => ⟨⟨hg, user, ⟨body, hbody, ?_,
                      hcompare⟩, rfl, rfl⟩, fun done => ?_⟩⟩
                    · simp
                    · cases done with
                      | error err => trivial
                      | ok u => trivial
            · trivial

theorem logout_along (req : Request) (ctx : UserContext)
    (pathValue : String → String) {username role : String}
    (hg : Goes req "POST" logoutPath) (hs : Session req h username role) :
    (AuthHandler.logout req ctx pathValue).Along (Allowed req) h := by
  unfold AuthHandler.logout
  dsimp only
  split
  · trivial
  · exact ⟨⟨hg, rfl, username, role, hs⟩, fun _ => trivial⟩

variable {req : Request} {ctx : UserContext} {pathValue : String → String}

theorem createUser_along (hg : Goes req "POST" usersPath)
    (hr : HasRole req h adminOnly) :
    (AuthHandler.createUser req ctx pathValue).Along (Allowed req) h := by
  unfold AuthHandler.createUser
  split
  · trivial
  · split
    · trivial
    · split
      · trivial
      · split
        · trivial
        · refine ⟨rfl, fun hash? => ?_⟩
          cases hash? with
          | error err => trivial
          | ok hash =>
              refine ⟨⟨hg, hr.past⟩, fun done => ?_⟩
              cases done with
              | error err => trivial
              | ok u => trivial

theorem changeRole_along {target role : String} {k : ServerProg Response}
    (hrole : role ≠ "" → Allowed req h (.store (.updateUserRole target role)))
    (hk : ∀ tr, k.Along (Allowed req) (h ++ tr)) :
    (AuthHandler.changeRole target role k).Along (Allowed req) h := by
  unfold AuthHandler.changeRole
  split
  · simpa using hk []
  · next hne =>
      split
      · trivial
      · refine ⟨hrole hne, fun done => ?_⟩
        cases done with
        | error err => trivial
        | ok u => exact hk _

theorem changePassword_along {target password : String}
    (hpass : ∀ hash tr,
      Allowed req (h ++ tr) (.store (.updatePassword target hash)))
    {resp : Response} :
    (AuthHandler.changePassword target password (.ret resp)).Along
      (Allowed req) h := by
  unfold AuthHandler.changePassword
  split
  · trivial
  · refine ⟨rfl, fun hash? => ?_⟩
    cases hash? with
    | error err => trivial
    | ok hash =>
        refine ⟨hpass hash _, fun done => ?_⟩
        cases done with
        | error err => trivial
        | ok u => trivial

theorem updateUser_along (hg : Goes req "PUT" userPath)
    (hs : Session req h ctx.username ctx.role) :
    (AuthHandler.updateUser req ctx pathValue).Along (Allowed req) h := by
  unfold AuthHandler.updateUser
  dsimp only
  split
  · trivial
  · next body hbody =>
      split
      · trivial
      · next hself =>
          split
          · trivial
          · next hrole =>
              refine changeRole_along (fun hne => ?_) fun tr =>
                changePassword_along fun hash tr' => ?_
              · have hadmin : ctx.role = "admin" := by
                  by_contra hno
                  exact hrole ⟨hno, hne⟩
                exact ⟨hg, ctx.username, ctx.role, by simp [adminOnly, hadmin],
                  hs⟩
              · refine ⟨hg, ctx.username, ctx.role, hs.past.past, ?_⟩
                by_contra hno
                exact hself (not_or.mp hno)

theorem deleteUser_along (hg : Goes req "DELETE" userPath)
    (hr : HasRole req h adminOnly) :
    (AuthHandler.deleteUser req ctx pathValue).Along (Allowed req) h := by
  unfold AuthHandler.deleteUser
  dsimp only
  split
  · trivial
  · split
    · trivial
    · refine ⟨⟨hg, hr⟩, fun done => ?_⟩
      cases done with
      | error err => trivial
      | ok u => trivial

theorem withClient_along {id notFound : String}
    {k : Endpoint → ServerProg Response}
    (hk : ∀ client tr, (k client).Along (Allowed req) (h ++ tr)) :
    (withClient id notFound k).Along (Allowed req) h := by
  refine ⟨rfl, fun r => ?_⟩
  cases r with
  | error err => trivial
  | ok client => exact hk client _

theorem withFlag_along {k : Endpoint → FeatureFlag → ServerProg Response}
    (hk : ∀ client flag tr, (k client flag).Along (Allowed req) (h ++ tr)) :
    (FlagHandler.withFlag req pathValue k).Along (Allowed req) h := by
  unfold FlagHandler.withFlag
  dsimp only
  split
  · trivial
  · refine withClient_along fun client tr => ⟨rfl, fun r => ?_⟩
    cases r with
    | error err => trivial
    | ok flag =>
        rw [List.append_assoc]
        exact hk client flag _

theorem writeFlag_along {verb action : String} {client : Endpoint}
    {flag : FeatureFlag}
    (hw : Allowed req h (.kube client (.updateFlag flag))) :
    (FlagHandler.writeFlag req pathValue verb action client flag).Along
      (Allowed req) h := by
  refine ⟨hw, fun r => ?_⟩
  cases r with
  | error err => trivial
  | ok stored => exact ⟨rfl, fun _ => trivial⟩

theorem updateFlag_along (hg : Goes req "PUT" flagPath)
    (hr : HasRole req h editorUp) :
    (FlagHandler.update req ctx pathValue).Along (Allowed req) h := by
  refine withFlag_along fun client flag tr => ?_
  split
  · trivial
  · exact writeFlag_along ⟨.inl hg, hr.past⟩

theorem toggleFlag_along (hg : Goes req "POST" togglePath)
    (hr : HasRole req h editorUp) :
    (FlagHandler.toggle req ctx pathValue).Along (Allowed req) h := by
  refine withFlag_along fun client flag tr => ?_
  split
  · trivial
  · exact writeFlag_along ⟨.inr hg, hr.past⟩

theorem deleteFlag_along (hg : Goes req "DELETE" flagPath)
    (hr : HasRole req h adminOnly) :
    (FlagHandler.delete req ctx pathValue).Along (Allowed req) h := by
  refine withFlag_along fun client flag tr => ⟨⟨hg, hr.past⟩, fun r => ?_⟩
  cases r with
  | error err => trivial
  | ok u => exact ⟨rfl, fun _ => trivial⟩

theorem createFlag_along (hg : Goes req "POST" flagsPath)
    (hr : HasRole req h editorUp) :
    (FlagHandler.create req ctx pathValue).Along (Allowed req) h := by
  unfold FlagHandler.create
  split
  · trivial
  · split
    · trivial
    · refine withClient_along fun client tr =>
        ⟨⟨hg, hr.past⟩, fun r => ?_⟩
      cases r with
      | error err => trivial
      | ok flag => exact ⟨rfl, fun _ => trivial⟩

theorem registerCluster_along (hg : Goes req "POST" clustersPath)
    (hr : HasRole req h adminOnly) :
    (ClusterHandler.register req ctx pathValue).Along (Allowed req) h := by
  unfold ClusterHandler.register
  split
  · trivial
  · split
    · trivial
    · refine ⟨⟨hg, hr⟩, fun r => ?_⟩
      cases r with
      | error err => trivial
      | ok u => exact ⟨rfl, fun _ => trivial⟩

theorem removeCluster_along (hg : Goes req "DELETE" clusterPath)
    (hr : HasRole req h adminOnly) :
    (ClusterHandler.remove req ctx pathValue).Along (Allowed req) h := by
  refine ⟨⟨hg, hr⟩, fun r => ?_⟩
  cases r with
  | error err => trivial
  | ok u => exact ⟨rfl, fun _ => trivial⟩

/-! ## The routes -/

/-- Where a request stands when the router gets it: without a token on one of
the paths that need none, or as the session of its token. -/
def Admitted (req : Request) (ctx : UserContext) (h : List ServerEvent) : Prop :=
  skipsAuth req = true ∧ ctx = {} ∨ Session req h ctx.username ctx.role

omit [Bcrypt] in
theorem Admitted.hasRole {roles : List String} (ha : Admitted req ctx h)
    (hrole : ctx.role ∈ roles) (hempty : "" ∉ roles) :
    HasRole req h roles := by
  rcases ha with ⟨_, rfl⟩ | hs
  · exact (hempty hrole).elim
  · exact ⟨ctx.username, ctx.role, hrole, hs⟩

theorem requireRole_along {roles : List String} {next : Handler}
    (ha : Admitted req ctx h) (hempty : "" ∉ roles)
    (hnext : HasRole req h roles → (next req ctx pathValue).Along
      (Allowed req) h) :
    (requireRole roles next req ctx pathValue).Along (Allowed req) h := by
  unfold requireRole
  split
  · next hrole => exact hnext (ha.hasRole hrole hempty)
  · trivial

omit [Bcrypt] in
/-- A `PUT` needs a token. -/
theorem Admitted.session_of_put (ha : Admitted req ctx h)
    (hput : req.method = "PUT") : Session req h ctx.username ctx.role := by
  rcases ha with ⟨hskip, _⟩ | hs
  · simp [skipsAuth, hput] at hskip
  · exact hs

omit [Bcrypt] in
/-- So does whatever the router takes for a logout, however it is escaped. -/
theorem Admitted.session_of_logout (ha : Admitted req ctx h)
    (hg : Goes req "POST" logoutPath)
    (hroot : req.url.escapedPath.toList.head? = some '/') :
    Session req h ctx.username ctx.role := by
  rcases ha with ⟨hskip, _⟩ | hs
  · have hpath : req.url.path.toList = _ :=
      URL.path_of_literals ["api", "v1", "auth", "logout"] hroot (by decide)
        hg.2
    have hlogin : req.url.path = "/api/v1/auth/login" := by
      simpa [skipsAuth, hg.1] using hskip
    rw [hlogin] at hpath
    exact absurd hpath (by decide)
  · exact hs

variable [Apimachinery]

/-- Whatever route a request takes, its calls are allowed. -/
theorem mux_along (ha : Admitted req ctx h) :
    (mux req ctx).Along (Allowed req) h := by
  unfold mux
  split
  · next hd values hserve =>
      obtain ⟨r, hr, rfl, hmethod, hmatch, hroot⟩ := serveMux_handler hserve
      have goes : ∀ m, r.method = m → m ≠ "GET" → Goes req m r.pattern := by
        rintro m rfl hget
        rcases hmethod with hm | ⟨_, hm⟩
        · exact ⟨hm.symm, by rw [hmatch]; rfl⟩
        · exact absurd hm hget
      have hrooted : r.method = "POST" →
          req.url.escapedPath.toList.head? = some '/' := by
        intro hpost
        refine hroot fun hconnect => ?_
        rcases hmethod with hm | ⟨hm, _⟩
        · rw [hpost, hconnect] at hm
          exact absurd hm (by decide)
        · rw [hconnect] at hm
          exact absurd hm (by decide)
      simp only [routes, List.mem_cons, List.not_mem_nil, or_false] at hr
      rcases hr with rfl | rfl | rfl | rfl | rfl | rfl | rfl | rfl | rfl | rfl |
        rfl | rfl | rfl | rfl | rfl | rfl | rfl | rfl | rfl | rfl | rfl | rfl <;>
        dsimp only
      · exact login_along req ctx _ (goes "POST" rfl (by decide))
      · have hg := goes "POST" rfl (by decide)
        exact logout_along req ctx _ hg (ha.session_of_logout hg (hrooted rfl))
      · exact along_of_quiet (me_quiet req ctx _)
      · exact along_of_quiet (listUsers_quiet req ctx _)
      · exact requireRole_along ha (by decide)
          (createUser_along (goes "POST" rfl (by decide)))
      · have hg := goes "PUT" rfl (by decide)
        exact updateUser_along hg (ha.session_of_put hg.1)
      · exact requireRole_along ha (by decide)
          (deleteUser_along (goes "DELETE" rfl (by decide)))
      · exact along_of_quiet (listFlags_quiet req ctx _)
      · exact requireRole_along ha (by decide)
          (createFlag_along (goes "POST" rfl (by decide)))
      · exact along_of_quiet (withFlag_quiet fun _ _ => trivial)
      · exact requireRole_along ha (by decide)
          (updateFlag_along (goes "PUT" rfl (by decide)))
      · exact requireRole_along ha (by decide)
          (deleteFlag_along (goes "DELETE" rfl (by decide)))
      · exact requireRole_along ha (by decide)
          (toggleFlag_along (goes "POST" rfl (by decide)))
      · exact along_of_quiet (Prog.calls_call.mpr ⟨rfl, fun _ => trivial⟩)
      · exact requireRole_along ha (by decide)
          (registerCluster_along (goes "POST" rfl (by decide)))
      · exact along_of_quiet (getCluster_quiet req ctx _)
      · exact requireRole_along ha (by decide)
          (removeCluster_along (goes "DELETE" rfl (by decide)))
      · exact requireRole_along ha (by decide) fun _ =>
          along_of_quiet (WorkloadHandler.listNamespaces_quiet req ctx _)
      · exact requireRole_along ha (by decide) fun _ =>
          along_of_quiet (WorkloadHandler.list_quiet req ctx _)
      · exact requireRole_along ha (by decide) fun _ =>
          along_of_quiet (WorkloadHandler.get_quiet req ctx _)
      · exact along_of_quiet (listAudit_quiet req ctx _)
      · trivial
  · trivial
  · trivial
  · trivial
  · trivial

/-- Every call the server makes for a request is allowed. -/
theorem serve_along (origins : String) (req : Request) :
    (serve origins req).Along (Allowed req) [] := by
  unfold serve cors
  dsimp only
  split
  · trivial
  · refine Prog.Along.map ?_
    unfold auth
    dsimp only
    split
    · next hskip => exact mux_along (.inl ⟨hskip, rfl⟩)
    · split
      · trivial
      · refine ⟨rfl, fun r => ?_⟩
        cases r with
        | none => trivial
        | some sess => exact mux_along (.inr (by simp [Session]))

end

end Vexil.Server
