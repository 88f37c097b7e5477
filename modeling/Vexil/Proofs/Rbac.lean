import Vexil.Server.Access

/-!
# Who may change what

Requests of any kind, by any number of clients, are served at once. Whatever one
step of a request does to a user, a session, a flag or a registered cluster is
one of the changes listed below, with the route the request took and the role
that the store had given its token. All other requests leave the four tables
alone.

`serve_along` has done the work on the code: each call has its grounds among the
replies before it. Here the grounds become facts about states the run went
through, and the call becomes the difference between two states.
-/

namespace Vexil.Server

open Vexil.Lib Vexil.Kube

/-! ## The changes -/

section
variable (req : Request) (auth : String → String → Prop)

/-- The token of the request is a session with one of these roles. -/
def AuthRole (roles : List String) : Prop :=
  ∃ username, ∃ role ∈ roles, auth username role

/-- What may happen to the record of a user, and for whom. -/
inductive UserChange (name : String) : Option User → Option User → Prop
  | same (u : Option User) : UserChange name u u
  | created (b : User) : Goes req "POST" usersPath → AuthRole auth adminOnly →
      UserChange name none (some b)
  | deleted (a : User) : Goes req "DELETE" userPath → AuthRole auth adminOnly →
      UserChange name (some a) none
  | role (a : User) (role : String) : Goes req "PUT" userPath →
      AuthRole auth adminOnly →
      UserChange name (some a) (some { a with role := role })
  | password (a : User) (hash username role : String) :
      Goes req "PUT" userPath → auth username role →
      (role = "admin" ∨ username = name) →
      UserChange name (some a) (some { a with passwordHash := hash })

/-- What may happen to the session of a token. -/
inductive SessionChange (found : User → Prop) (token : String) :
    Option MemSession → Option MemSession → Prop
  | same (sess : Option MemSession) : SessionChange found token sess sess
  | opened (old : Option MemSession) (user : User) (expiresAt : Nat) :
      Goes req "POST" loginPath → found user →
      SessionChange found token old
        (some ⟨user.username, user.role, expiresAt⟩)
  | closed (old : Option MemSession) (username role : String) :
      Goes req "POST" logoutPath → token = extractBearerToken req →
      auth username role → SessionChange found token old none

/-- What may happen to a flag. -/
inductive FlagChange : Option FeatureFlag → Option FeatureFlag → Prop
  | same (f : Option FeatureFlag) : FlagChange f f
  | written (old : Option FeatureFlag) (f : FeatureFlag) :
      (Goes req "POST" flagsPath ∨ Goes req "PUT" flagPath ∨
        Goes req "POST" togglePath) →
      AuthRole auth editorUp → FlagChange old (some f)
  | deleted (old : Option FeatureFlag) : Goes req "DELETE" flagPath →
      AuthRole auth adminOnly → FlagChange old none

/-- What may happen to a registered cluster. -/
inductive ClusterChange : Option ClusterConn → Option ClusterConn → Prop
  | same (conn : Option ClusterConn) : ClusterChange conn conn
  | registered (conn : ClusterConn) : Goes req "POST" clustersPath →
      AuthRole auth adminOnly → ClusterChange none (some conn)
  | removed (conn : ClusterConn) : Goes req "DELETE" clusterPath →
      AuthRole auth adminOnly → ClusterChange (some conn) none

/-- The routes that change anything. -/
def writingRoutes : List (String × List Segment) := [
  ("POST", loginPath), ("POST", logoutPath),
  ("POST", usersPath), ("PUT", userPath), ("DELETE", userPath),
  ("POST", flagsPath), ("PUT", flagPath), ("DELETE", flagPath),
  ("POST", togglePath),
  ("POST", clustersPath), ("DELETE", clusterPath)]

/-- A step of the request `req` changes what it may and nothing else. -/
structure Permitted (found : User → Prop) (s s' : ServerState) : Prop where
  users : ∀ name, UserChange req auth name (s.store.users.lookup name)
    (s'.store.users.lookup name)
  sessions : ∀ token, SessionChange req auth found token
    (s.store.sessions.lookup token) (s'.store.sessions.lookup token)
  flags : ∀ client key, FlagChange req auth ((s.kube client).flags.get? key)
    ((s'.kube client).flags.get? key)
  clusters : ∀ id, ClusterChange req auth (s.clusters.clusters.lookup id)
    (s'.clusters.clusters.lookup id)
  others : (∀ route ∈ writingRoutes, ¬Goes req route.1 route.2) →
    Unchanged s s'

end

/-! ## One table at a time -/

variable {req : Request} {auth : String → String → Prop} {found : User → Prop}

theorem Permitted.of_unchanged {s s' : ServerState} (h : Unchanged s s') :
    Permitted req auth found s s' where
  users name := by rw [h.users]; exact .same _
  sessions token := by rw [h.sessions]; exact .same _
  flags client key := by rw [h.flags]; exact .same _
  clusters id := by rw [h.clusters]; exact .same _
  others _ := h

theorem Permitted.of_users {s : ServerState} {st : MemoryStore}
    (hsess : st.sessions = s.store.sessions)
    (hroute : ∃ route ∈ writingRoutes, Goes req route.1 route.2)
    (husers : ∀ name, UserChange req auth name (s.store.users.lookup name)
      (st.users.lookup name)) :
    Permitted req auth found s { s with store := st } where
  users := husers
  sessions token := by
    rw [show { s with store := st : ServerState }.store.sessions =
      s.store.sessions from hsess]
    exact .same _
  flags _ _ := .same _
  clusters _ := .same _
  others hno := by
    obtain ⟨route, hmem, hg⟩ := hroute
    exact (hno route hmem hg).elim

theorem Permitted.of_sessions {s : ServerState} {st : MemoryStore}
    (husers : st.users = s.store.users)
    (hroute : ∃ route ∈ writingRoutes, Goes req route.1 route.2)
    (hsess : ∀ token, SessionChange req auth found token
      (s.store.sessions.lookup token) (st.sessions.lookup token)) :
    Permitted req auth found s { s with store := st } where
  users name := by
    rw [show { s with store := st : ServerState }.store.users =
      s.store.users from husers]
    exact .same _
  sessions := hsess
  flags _ _ := .same _
  clusters _ := .same _
  others hno := by
    obtain ⟨route, hmem, hg⟩ := hroute
    exact (hno route hmem hg).elim

theorem Permitted.of_flags {s : ServerState} {client : Endpoint} {k : Cluster}
    (hroute : ∃ route ∈ writingRoutes, Goes req route.1 route.2)
    (hflags : ∀ key, FlagChange req auth ((s.kube client).flags.get? key)
      (k.flags.get? key)) :
    Permitted req auth found s (s.setKube client k) where
  users _ := .same _
  sessions _ := .same _
  flags client' key := by
    by_cases hclient : client' = client
    · subst hclient
      rw [kube_setKube_self]
      exact hflags key
    · rw [kube_setKube_ne s hclient]
      exact .same _
  clusters _ := .same _
  others hno := by
    obtain ⟨route, hmem, hg⟩ := hroute
    exact (hno route hmem hg).elim

theorem Permitted.of_clusters {s : ServerState} {m : Manager}
    (hroute : ∃ route ∈ writingRoutes, Goes req route.1 route.2)
    (hclusters : ∀ id, ClusterChange req auth
      (s.clusters.clusters.lookup id) (m.clusters.lookup id)) :
    Permitted req auth found s { s with clusters := m } where
  users _ := .same _
  sessions _ := .same _
  flags _ _ := .same _
  clusters := hclusters
  others hno := by
    obtain ⟨route, hmem, hg⟩ := hroute
    exact (hno route hmem hg).elim

theorem userChange_of_insert {users : GoMap User} {name : String} {user : User}
    (h : UserChange req auth name (users.lookup name) (some user))
    (k : String) :
    UserChange req auth k (users.lookup k)
      ((users.insert name user).lookup k) := by
  rw [GoMap.lookup_insert]
  split
  · next hk =>
      subst hk
      exact h
  · exact .same _

/-! ## Calls that change something -/

section
variable [Bcrypt] [ClientGo]

omit [ClientGo] in
/-- Every other call was made on one of the routes that change anything. -/
theorem route_of_not_quiet {req : Request} {h : List ServerEvent}
    {c : ServerCall} (hc : Allowed req h c) (hq : c.isQuiet ≠ true) :
    ∃ route ∈ writingRoutes, Goes req route.1 route.2 := by
  have route : ∀ m p, (m, p) ∈ writingRoutes → Goes req m p →
      ∃ route ∈ writingRoutes, Goes req route.1 route.2 :=
    fun m p hmem hg => ⟨(m, p), hmem, hg⟩
  cases c with
  | store c =>
      cases c with
      | createUser | deleteUser | updateUserRole | updatePassword
      | createSession | deleteSession =>
          exact route _ _ (by simp [writingRoutes]) hc.1
      | _ => exact absurd rfl hq
  | clusters c =>
      cases c with
      | addCluster | removeCluster =>
          exact route _ _ (by simp [writingRoutes]) hc.1
      | _ => exact absurd rfl hq
  | kube client c =>
      cases c with
      | createFlag | deleteFlag => exact route _ _ (by simp [writingRoutes]) hc.1
      | updateFlag f =>
          rcases hc.1 with hg | hg
          · exact route _ _ (by simp [writingRoutes]) hg
          · exact route _ _ (by simp [writingRoutes]) hg
      | _ => exact absurd hc hq
  | now | randRead n | generateFromPassword password => exact absurd rfl hq

omit [ClientGo] in
/-- An allowed call of the store. -/
theorem permitted_store {s : ServerState} {h : List ServerEvent}
    {c : StoreCall} (uuid : String) (hc : Allowed req h (.store c))
    (hq : (ServerCall.store c).isQuiet ≠ true)
    (hauth : ∀ username role, Session req h username role → auth username role)
    (hfound : ∀ user, LoginFound req h user → found user) :
    Permitted req auth found s
      { s with store := (c.serve uuid s.now s.store).2 } := by
  have hrole : ∀ roles, HasRole req h roles → AuthRole auth roles := by
    rintro roles ⟨username, role, hmem, hs⟩
    exact ⟨username, role, hmem, hauth _ _ hs⟩
  have hroute := route_of_not_quiet hc hq
  cases c with
  | createUser user =>
      simp only [StoreCall.serve, MemoryStore.createUser]
      split
      · exact .of_unchanged ⟨rfl, rfl, fun _ => rfl, rfl⟩
      · next hnone =>
          refine .of_users rfl hroute (userChange_of_insert ?_)
          rw [hnone]
          exact .created _ hc.1 (hrole _ hc.2)
  | deleteUser name =>
      simp only [StoreCall.serve, MemoryStore.deleteUser]
      split
      · exact .of_unchanged ⟨rfl, rfl, fun _ => rfl, rfl⟩
      · next user hsome =>
          refine .of_users rfl hroute fun k => ?_
          rw [GoMap.lookup_erase]
          split
          · next hk =>
              rw [hk, hsome]
              exact .deleted _ hc.1 (hrole _ hc.2)
          · exact .same _
  | updateUserRole name role =>
      simp only [StoreCall.serve, MemoryStore.updateUserRole]
      split
      · exact .of_unchanged ⟨rfl, rfl, fun _ => rfl, rfl⟩
      · next user hsome =>
          refine .of_users rfl hroute (userChange_of_insert ?_)
          rw [hsome]
          exact .role _ role hc.1 (hrole _ hc.2)
  | updatePassword name hash =>
      simp only [StoreCall.serve, MemoryStore.updatePassword]
      split
      · exact .of_unchanged ⟨rfl, rfl, fun _ => rfl, rfl⟩
      · next user hsome =>
          obtain ⟨hg, username, role, hs, hwho⟩ := hc
          refine .of_users rfl hroute (userChange_of_insert ?_)
          rw [hsome]
          exact .password _ hash username role hg (hauth _ _ hs) hwho
  | createSession token username role expiresAt =>
      obtain ⟨hg, user, hlogin, rfl, rfl⟩ := hc
      refine .of_sessions rfl hroute fun t => ?_
      simp only [StoreCall.serve, MemoryStore.createSession]
      rw [GoMap.lookup_insert]
      split
      · exact .opened _ user expiresAt hg (hfound user hlogin)
      · exact .same _
  | deleteSession token =>
      obtain ⟨hg, htoken, username, role, hs⟩ := hc
      refine .of_sessions rfl hroute fun t => ?_
      simp only [StoreCall.serve, MemoryStore.deleteSession]
      rw [GoMap.lookup_erase]
      split
      · next ht =>
          exact .closed _ username role hg (ht.trans htoken) (hauth _ _ hs)
      · exact .same _
  | recordAudit | listAuditEvents | getUserByUsername | listUsers
  | getSession => exact absurd rfl hq

/-- An allowed call of the registry. -/
theorem permitted_clusters {s : ServerState} {h : List ServerEvent}
    {c : ManagerCall} (fault : Option String) (order : List String)
    (hc : Allowed req h (.clusters c))
    (hq : (ServerCall.clusters c).isQuiet ≠ true)
    (hauth : ∀ username role, Session req h username role →
      auth username role) :
    Permitted req auth found s
      { s with clusters := (c.serve fault order s.clusters).2 } := by
  have hrole : ∀ roles, HasRole req h roles → AuthRole auth roles := by
    rintro roles ⟨username, role, hmem, hs⟩
    exact ⟨username, role, hmem, hauth _ _ hs⟩
  have hroute := route_of_not_quiet hc hq
  cases c with
  | addCluster info kubeconfig token =>
      refine .of_clusters hroute fun id => ?_
      simp only [ManagerCall.serve, Manager.addCluster]
      split
      · exact .same _
      · next hnone =>
          split
          · exact .same _
          · split
            · exact .same _
            · exact .same _
            · rw [GoMap.lookup_insert]
              split
              · next hid =>
                  rw [hid, hnone]
                  exact .registered _ hc.1 (hrole _ hc.2)
              · exact .same _
  | removeCluster id =>
      refine .of_clusters hroute fun k => ?_
      simp only [ManagerCall.serve, Manager.removeCluster]
      split
      · exact .same _
      · next conn hsome =>
          rw [GoMap.lookup_erase]
          split
          · next hk =>
              rw [hk, hsome]
              exact .removed _ hc.1 (hrole _ hc.2)
          · exact .same _
  | getClient | getClusterInfo | clusterIDs | listClusters =>
      exact absurd rfl hq

omit [ClientGo] in
/-- An allowed call to a cluster. -/
theorem permitted_kube {s : ServerState} {h : List ServerEvent}
    {client : Endpoint} {c : KubeCall} {r : c.Reply} {k : Cluster}
    (hk : StaleStep (s.kube client) ⟨c, r⟩ k)
    (hc : Allowed req h (.kube client c))
    (hq : (ServerCall.kube client c).isQuiet ≠ true)
    (hauth : ∀ username role, Session req h username role →
      auth username role) :
    Permitted req auth found s (s.setKube client k) := by
  have hrole : ∀ roles, HasRole req h roles → AuthRole auth roles := by
    rintro roles ⟨username, role, hmem, hs⟩
    exact ⟨username, role, hmem, hauth _ _ hs⟩
  have hroute := route_of_not_quiet hc hq
  have hunchanged : k = s.kube client →
      Permitted req auth found s (s.setKube client k) := by
    rintro rfl
    rw [setKube_self]
    exact .of_unchanged ⟨rfl, rfl, fun _ => rfl, rfl⟩
  have hwrite : ∀ f : FeatureFlag,
      (Goes req "POST" flagsPath ∨ Goes req "PUT" flagPath ∨
        Goes req "POST" togglePath) → HasRole req h editorUp →
      k = { s.kube client with flags := (s.kube client).flags.write f } →
      Permitted req auth found s (s.setKube client k) := by
    rintro f hg hr rfl
    refine .of_flags hroute fun key => ?_
    have hget := VTable.get?_write (s.kube client).flags f key
    split at hget
    · exact hget ▸ .written _ _ hg (hrole _ hr)
    · exact hget ▸ .same _
  rcases hk.cases with ⟨hread, _⟩ | hk
  · exact absurd hread hq
  · cases r with
    | error err => exact hunchanged hk.of_error
    | ok v =>
        cases c with
        | createFlag f =>
            exact hwrite _ (.inl hc.1) hc.2 (kubeStep_createFlag hk).2
        | updateFlag f =>
            obtain ⟨old, _, _, ⟨_, hsame⟩ | hnew⟩ := kubeStep_updateFlag hk
            · exact hunchanged hsame
            · exact hwrite _ (.inr hc.1) hc.2 hnew
        | deleteFlag key =>
            have hdel := kubeStep_deleteFlag hk
            subst hdel
            refine .of_flags hroute fun key' => ?_
            have hget := VTable.get?_remove (s.kube client).flags key key'
            split at hget
            · exact hget ▸ .deleted _ hc.1 (hrole _ hc.2)
            · exact hget ▸ .same _
        | _ => exact absurd hc hq

/-- A step whose call is allowed is permitted. -/
theorem permitted_step {s s' : ServerState} {h : List ServerEvent}
    {e : ServerEvent} (hstep : ServerStep s e s') (hc : Allowed req h e.call)
    (hauth : ∀ username role, Session req h username role → auth username role)
    (hfound : ∀ user, LoginFound req h user → found user) :
    Permitted req auth found s s' := by
  by_cases hq : e.call.isQuiet = true
  · exact .of_unchanged (unchanged_of_quiet hstep hq)
  · obtain ⟨c, r⟩ := e
    cases c with
    | store c =>
        obtain ⟨uuid, _, rfl⟩ := hstep
        exact permitted_store uuid hc hq hauth hfound
    | clusters c =>
        obtain ⟨fault, order, _, _, rfl⟩ := hstep
        exact permitted_clusters fault order hc hq hauth
    | kube client c =>
        obtain ⟨k, hk, rfl⟩ := hstep
        exact permitted_kube hk hc hq hauth
    | now | randRead n | generateFromPassword password => exact absurd rfl hq

/-! ## Runs -/

variable {ι : Type}

/-- In the run `pre` from `s₀` request `i` had its token looked up, and in the
state it was looked up in it was a session of this user and role. -/
def ValidSession (s₀ : ServerState) (pre : List (ServerLabel ι)) (i : ι)
    (token username role : String) : Prop :=
  ∃ before after m, pre = before ++
      .own i ⟨.store (.getSession token), some (username, role)⟩ :: after ∧
    Run ServerSystem s₀ before m ∧
    m.store.getSession m.now token = some (username, role)

/-- In the run `pre` from `s₀` the login `i` had its user looked up; this is the
user it found, and the password of the request matches the stored hash. -/
def CredentialsMatch (s₀ : ServerState) (pre : List (ServerLabel ι)) (i : ι)
    (req : Request) (user : User) : Prop :=
  ∃ body before after m, req.body.login = some body ∧ pre = before ++
      .own i ⟨.store (.getUserByUsername body.username), .ok user⟩ :: after ∧
    Run ServerSystem s₀ before m ∧
    m.store.users.lookup body.username = some user ∧
    Bcrypt.compareHashAndPassword user.passwordHash body.password = true

variable [DecidableEq ι]

variable [Apimachinery]

/-- In every run of any number of requests, each step of a request changes
users, sessions, flags and registered clusters only as its route and the role of
its session permit. -/
theorem rbac_safe (origins : String) (reqs : ι → Request)
    {s₀ s s' : ServerState} {pre post : List (ServerLabel ι)} {i : ι}
    {e : ServerEvent}
    (hprogs : Interleaved (fun i => serve origins (reqs i))
      (pre ++ .own i e :: post))
    (hrun : Run ServerSystem s₀ pre s) (hstep : ServerStep s e s') :
    Permitted (reqs i)
      (ValidSession s₀ pre i (extractBearerToken (reqs i)))
      (CredentialsMatch s₀ pre i (reqs i)) s s' := by
  have hc : Allowed (reqs i) (proj i pre) e.call :=
    hprogs.call_along (P := fun i => Allowed (reqs i))
      (serve_along origins (reqs i))
  refine permitted_step hstep hc ?_ ?_
  · intro username role hs
    obtain ⟨before, after, rfl⟩ := List.append_of_mem (mem_proj.mp hs)
    obtain ⟨m, _, hbefore, hget, _⟩ := hrun.at_event
    obtain ⟨_, hvalid, _⟩ := hget
    exact ⟨before, after, m, rfl, hbefore, hvalid⟩
  · intro user hlogin
    obtain ⟨body, hbody, he, hmatch⟩ := hlogin
    obtain ⟨before, after, rfl⟩ := List.append_of_mem (mem_proj.mp he)
    obtain ⟨m, _, hbefore, hget, _⟩ := hrun.at_event
    exact ⟨body, before, after, m, hbody, rfl, hbefore,
      (getUser_serverStep hget).1, hmatch⟩

end

/-! An admin deletes a user, under an escaped path. The second call of the
request is the one that does it. -/

def staffedServer : ServerState where
  store :=
    let st := (MemoryStore.new.createUser "1" 0
      { username := "admin", passwordHash := "", role := "admin" }).2
    let st := (st.createUser "2" 0
      { username := "bob", passwordHash := "", role := "editor" }).2
    st.createSession "t0ken" "admin" "admin" 100
  clusters := ⟨∅⟩
  kube _ := {}
  now := 0

def deleteBob : Request where
  method := "DELETE"
  url := ⟨"/api/v1/users/b%6Fb", "/api/v1/users/bob", by decide +kernel⟩
  authorization := "Bearer t0ken"

def deleteTrace : List ServerEvent :=
  letI := labelSelectors
  letI := plainBcrypt
  letI := anyHost
  ((serve "*" deleteBob).exec (ServerCall.serve {}) staffedServer).1

theorem rbac_safe_sample :
    letI := plainBcrypt
    letI := anyHost
    ∃ e s s', deleteTrace[1]? = some e ∧
      Run ServerSystem staffedServer (ownAll () (deleteTrace.take 1)) s ∧
      ServerStep s e s' ∧
      Permitted deleteBob
        (ValidSession staffedServer (ownAll () (deleteTrace.take 1)) ()
          (extractBearerToken deleteBob))
        (CredentialsMatch staffedServer (ownAll () (deleteTrace.take 1)) ()
          deleteBob) s s' := by
  let := labelSelectors
  let := plainBcrypt
  let := anyHost
  have hlen : 1 < deleteTrace.length := by decide +kernel
  have hown : ∀ s e s', Answers (ServerCall.serve {}) s e s' →
      ServerSystem s (.own () e : ServerLabel Unit) s' :=
    fun _ _ _ h => serve_step h
  obtain ⟨e, s, s', he, hprogs, hrun, hstep⟩ := Prog.exec_event
    (ε := ServerMove) (ServerCall.serve {}) (serve "*" deleteBob)
    staffedServer hlen
  exact ⟨e, s, s', he, hrun.ownAll hown, serve_step hstep,
    rbac_safe "*" (fun _ => deleteBob) hprogs (hrun.ownAll hown)
      (serve_step hstep)⟩

end Vexil.Server
