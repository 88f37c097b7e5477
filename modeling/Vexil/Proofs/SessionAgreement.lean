import Vexil.Server.Access

/-!
# What a session is worth

A login copies the user's name and role into the session, and from then on
`ValidateToken` reads the copy. Nothing else writes to the sessions but another
login and a logout: deleting a user or changing a role does not look for the
sessions that were opened before it. So a session is as good as the lookup its
login made, and what can be said of it now is what can be said of that lookup
now.

`session_agreement` says so for all runs of a server that started without
sessions. The name and role of a valid session are those of the user that its
login looked up; and the users table still has that user with that role, unless
a deletion or a change of role of this user was accepted since.
-/

namespace Vexil.Server

open Vexil.Lib Vexil.Kube

/-! ## One step -/

/-- The user was deleted, or given a role. -/
def Revokes (name : String) : ServerEvent → Prop
  | ⟨.store (.deleteUser username), .ok _⟩ => username = name
  | ⟨.store (.updateUserRole username _), .ok _⟩ => username = name
  | _ => False

/-- The users table holds a user of this name and role. -/
def HoldsRole (s : ServerState) (name role : String) : Prop :=
  ∃ user, s.store.users.lookup name = some user ∧ user.role = role

section
variable [Bcrypt] [ClientGo]

/-- A session is new only in the call that creates it. -/
theorem session_step {s s' : ServerState} {e : ServerEvent} {token : String}
    {sess : MemSession} (h : ServerStep s e s')
    (hsess : s'.store.sessions.lookup token = some sess) :
    s.store.sessions.lookup token = some sess ∨
      e.call = .store (.createSession token sess.username sess.role
        sess.expiresAt) := by
  by_cases hq : e.call.isQuiet = true
  · rw [(unchanged_of_quiet h hq).sessions] at hsess
    exact .inl hsess
  · obtain ⟨c, r⟩ := e
    cases c with
    | store c =>
        obtain ⟨uuid, _, rfl⟩ := h
        cases c with
        | createUser user =>
            simp only [StoreCall.serve, MemoryStore.createUser] at hsess
            split at hsess
            · exact .inl hsess
            · exact .inl hsess
        | deleteUser name =>
            simp only [StoreCall.serve, MemoryStore.deleteUser] at hsess
            split at hsess
            · exact .inl hsess
            · exact .inl hsess
        | updateUserRole name role =>
            simp only [StoreCall.serve, MemoryStore.updateUserRole] at hsess
            split at hsess
            · exact .inl hsess
            · exact .inl hsess
        | updatePassword name hash =>
            simp only [StoreCall.serve, MemoryStore.updatePassword] at hsess
            split at hsess
            · exact .inl hsess
            · exact .inl hsess
        | createSession t username role expiresAt =>
            simp only [StoreCall.serve, MemoryStore.createSession] at hsess
            rw [GoMap.lookup_insert] at hsess
            split at hsess
            · next ht =>
                cases hsess
                exact .inr (by rw [ht])
            · exact .inl hsess
        | deleteSession t =>
            simp only [StoreCall.serve, MemoryStore.deleteSession] at hsess
            rw [GoMap.lookup_erase] at hsess
            split at hsess
            · cases hsess
            · exact .inl hsess
        | recordAudit | listAuditEvents | getUserByUsername | listUsers
        | getSession => exact .inl hsess
    | clusters c =>
        obtain ⟨fault, order, _, _, rfl⟩ := h
        exact .inl hsess
    | kube client c =>
        obtain ⟨k, _, rfl⟩ := h
        exact .inl hsess
    | now | randRead n | generateFromPassword password => exact absurd rfl hq

/-- A user keeps its role, or is deleted or given one. -/
theorem user_step {s s' : ServerState} {e : ServerEvent} {name role : String}
    (h : ServerStep s e s') (hrole : HoldsRole s name role) :
    HoldsRole s' name role ∨ Revokes name e := by
  obtain ⟨user, huser, rfl⟩ := hrole
  by_cases hq : e.call.isQuiet = true
  · exact .inl ⟨user, by rwa [(unchanged_of_quiet h hq).users], rfl⟩
  · obtain ⟨c, r⟩ := e
    cases c with
    | store c =>
        obtain ⟨uuid, rfl, rfl⟩ := h
        cases c with
        | createUser u =>
            simp only [HoldsRole, StoreCall.serve, MemoryStore.createUser]
            split
            · exact .inl ⟨user, huser, rfl⟩
            · next hnone =>
                refine .inl ⟨user, ?_, rfl⟩
                rw [MemoryStore.setUser, GoMap.lookup_insert, if_neg]
                · exact huser
                · rintro rfl
                  rw [hnone] at huser
                  cases huser
        | deleteUser username =>
            simp only [HoldsRole, StoreCall.serve, MemoryStore.deleteUser]
            split
            · exact .inl ⟨user, huser, rfl⟩
            · by_cases hname : username = name
              · exact .inr hname
              · refine .inl ⟨user, ?_, rfl⟩
                rw [GoMap.lookup_erase, if_neg (Ne.symm hname)]
                exact huser
        | updateUserRole username role =>
            simp only [HoldsRole, StoreCall.serve, MemoryStore.updateUserRole]
            split
            · exact .inl ⟨user, huser, rfl⟩
            · by_cases hname : username = name
              · exact .inr hname
              · refine .inl ⟨user, ?_, rfl⟩
                rw [MemoryStore.setUser, GoMap.lookup_insert,
                  if_neg (Ne.symm hname)]
                exact huser
        | updatePassword username hash =>
            simp only [HoldsRole, StoreCall.serve, MemoryStore.updatePassword]
            split
            · exact .inl ⟨user, huser, rfl⟩
            · next u hu =>
                refine .inl ?_
                rw [MemoryStore.setUser, GoMap.lookup_insert]
                split
                · next hname =>
                    subst hname
                    rw [hu] at huser
                    cases huser
                    exact ⟨_, rfl, rfl⟩
                · exact ⟨user, huser, rfl⟩
        | createSession | deleteSession => exact .inl ⟨user, huser, rfl⟩
        | recordAudit | listAuditEvents | getUserByUsername | listUsers
        | getSession => exact absurd rfl hq
    | clusters c =>
        obtain ⟨fault, order, _, _, rfl⟩ := h
        exact .inl ⟨user, huser, rfl⟩
    | kube client c =>
        obtain ⟨k, _, rfl⟩ := h
        exact .inl ⟨user, huser, rfl⟩
    | now | randRead n | generateFromPassword password => exact absurd rfl hq

/-! ## Runs -/

variable {ι : Type}

omit [Bcrypt] [ClientGo] in
theorem store_apply (w : ServerMove) (s : ServerState) :
    (w.apply s).store = s.store := by
  cases w <;> rfl

/-- A user keeps its role through a run in which it is not deleted and not given
one. -/
theorem user_run {s s' : ServerState} {ls : List (ServerLabel ι)}
    {name role : String} (hrun : Run ServerSystem s ls s')
    (hrole : HoldsRole s name role) :
    HoldsRole s' name role ∨ ∃ i e, .own i e ∈ ls ∧ Revokes name e := by
  induction hrun with
  | nil => exact .inl hrole
  | @cons s m s' l ls hstep _ ih =>
      have hm : HoldsRole m name role ∨ ∃ i e, l = .own i e ∧ Revokes name e := by
        cases l with
        | other w =>
            have hs : m = w.apply s := hstep
            refine .inl ?_
            rw [HoldsRole, hs, store_apply]
            exact hrole
        | own i e => exact (user_step hstep hrole).imp_right fun h => ⟨i, e, rfl, h⟩
      rcases hm with hm | ⟨i, e, rfl, hrev⟩
      · exact (ih hm).imp_right fun ⟨i, e, he, hrev⟩ => ⟨i, e, .tail _ he, hrev⟩
      · exact .inr ⟨i, e, List.mem_cons_self, hrev⟩

/-- A session of a server that started without any was created in the run. -/
theorem session_opened {s₀ s : ServerState} {ls : List (ServerLabel ι)}
    {token : String} {sess : MemSession} (hrun : Run ServerSystem s₀ ls s)
    (hnew : s₀.store.sessions = ∅)
    (hsess : s.store.sessions.lookup token = some sess) :
    ∃ i e pre post, ls = pre ++ .own i e :: post ∧
      e.call = .store (.createSession token sess.username sess.role
        sess.expiresAt) := by
  refine Run.reverse_induction (P := fun ls s =>
    s.store.sessions.lookup token = some sess →
      ∃ i e pre post, ls = pre ++ .own i e :: post ∧
        e.call = .store (.createSession token sess.username sess.role
          sess.expiresAt)) ?_ ?_ hrun hsess
  · intro h
    rw [hnew, Finmap.lookup_empty] at h
    cases h
  · intro ls m l s' hm ih hstep h
    have hold : m.store.sessions.lookup token = some sess →
        ∃ i e pre post, ls ++ [l] = pre ++ .own i e :: post ∧
          e.call = .store (.createSession token sess.username sess.role
            sess.expiresAt) := by
      intro hlookup
      obtain ⟨i, e, pre, post, rfl, he⟩ := ih hlookup
      exact ⟨i, e, pre, post ++ [l], by simp, he⟩
    cases l with
    | other w =>
        have hs : s' = w.apply m := hstep
        rw [hs, store_apply] at h
        exact hold h
    | own i e =>
        rcases session_step hstep h with h | he
        · exact hold h
        · exact ⟨i, e, ls, [], rfl, he⟩

variable [DecidableEq ι] [Apimachinery]

/-- The name and role of a valid session are those of the user its login looked
up, and they still are unless this user was deleted or given a role since. -/
theorem session_agreement (origins : String) (reqs : ι → Request)
    {s₀ s : ServerState} {ls : List (ServerLabel ι)} {token username role : String}
    (hprogs : Interleaved (fun i => serve origins (reqs i)) ls)
    (hrun : Run ServerSystem s₀ ls s) (hnew : s₀.store.sessions = ∅)
    (hvalid : s.store.getSession s.now token = some (username, role)) :
    ∃ i before after user, ls = before ++
        .own i ⟨.store (.getUserByUsername username), .ok user⟩ :: after ∧
      user.username = username ∧ user.role = role ∧
      (∃ e expiresAt, .own i e ∈ after ∧
        e.call = .store (.createSession token username role expiresAt)) ∧
      (HoldsRole s username role ∨
        ∃ j e, .own j e ∈ after ∧ Revokes username e) := by
  unfold MemoryStore.getSession at hvalid
  split at hvalid
  · cases hvalid
  · next sess hsess =>
      split at hvalid
      · cases hvalid
      · cases hvalid
        obtain ⟨i, e, pre, post, rfl, he⟩ := session_opened hrun hnew hsess
        have hallowed : Allowed (reqs i) (proj i pre) e.call :=
          hprogs.call_along (P := fun i => Allowed (reqs i))
            (serve_along origins (reqs i))
        rw [he] at hallowed
        obtain ⟨_, user, ⟨body, _, hlookup, _⟩, hname, hrole⟩ := hallowed
        obtain ⟨before, mid, rfl⟩ :=
          List.append_of_mem (mem_proj.mp hlookup)
        rw [List.append_assoc, List.cons_append] at hrun
        obtain ⟨m, m', _, hstep, hrest⟩ := hrun.at_event
        obtain ⟨hfound, rfl⟩ := getUser_serverStep hstep
        have hkeyed := m'.store.keyed _ _ hfound
        rw [← hname] at hkeyed
        rw [← hkeyed] at hfound
        refine ⟨i, before, mid ++ .own i e :: post, user, ?_, hname.symm,
          hrole.symm, ⟨e, sess.expiresAt, by simp, he⟩, ?_⟩
        · rw [List.append_assoc, List.cons_append, hkeyed]
        · exact user_run hrest ⟨user, hfound, hrole.symm⟩

end

/-! Bob is created, signs in and is deleted. Both parts of the last case can be
seen here: his session is still valid, and there is no user of that name. -/

/-- A server whose one user is the administrator, with the password `secret`. -/
def adminServer : ServerState where
  store := (MemoryStore.new.createUser "1" 0
    { username := "admin"
      passwordHash := "......................secret"
      role := "admin" }).2
  clusters := ⟨∅⟩
  kube _ := {}
  now := 0

/-- What the administrator's requests carry after the login that drew ones. -/
def adminBearer : String := "Bearer " ++ hexEncode (List.replicate 32 1)

def bobToken : String := hexEncode (List.replicate 32 2)

def bobRequests : Fin 4 → Request
  | 0 => {
      method := "POST"
      url := ⟨"/api/v1/auth/login", "/api/v1/auth/login", by decide +kernel⟩
      body := { login := some ⟨"admin", "secret"⟩ } }
  | 1 => {
      method := "POST"
      url := ⟨"/api/v1/users", "/api/v1/users", by decide +kernel⟩
      authorization := adminBearer
      body := { createUser := some ⟨"bob", "hunter2", "editor"⟩ } }
  | 2 => {
      method := "POST"
      url := ⟨"/api/v1/auth/login", "/api/v1/auth/login", by decide +kernel⟩
      body := { login := some ⟨"bob", "hunter2"⟩ } }
  | 3 => {
      method := "DELETE"
      url := ⟨"/api/v1/users/bob", "/api/v1/users/bob", by decide +kernel⟩
      authorization := adminBearer }

/-- The bytes that each login draws for its token. -/
def bobOracle : Fin 4 → Oracle
  | 0 => { bytes := List.replicate 32 1 }
  | 2 => { bytes := List.replicate 32 2 }
  | _ => {}

/-- Each request is served to its end before the next: the four calls of a
login, the three that create a user, the two that delete one. -/
def bobCalls : List (Fin 4 × Oracle) :=
  [0, 0, 0, 0, 1, 1, 1, 2, 2, 2, 2, 3, 3].map fun i => (i, bobOracle i)

def bobProgs (i : Fin 4) : ServerProg Response :=
  letI := labelSelectors
  letI := plainBcrypt
  letI := anyHost
  serve "*" (bobRequests i)

def bobRun : List (ServerLabel (Fin 4)) × (Fin 4 → ServerProg Response) ×
    ServerState :=
  letI := plainBcrypt
  letI := anyHost
  schedule ServerCall.serve bobCalls bobProgs adminServer

theorem bobRun_eq :
    letI := plainBcrypt
    letI := anyHost
    schedule ServerCall.serve bobCalls bobProgs adminServer = bobRun := rfl

theorem bobRun_run :
    letI := plainBcrypt
    letI := anyHost
    Interleaved bobProgs bobRun.1 ∧
      Run ServerSystem adminServer bobRun.1 bobRun.2.2 := by
  have h := bobRun_eq
  -- the run is not to be computed here
  generalize bobRun = r at h ⊢
  exact ⟨schedule_interleaved h,
    schedule_run (fun _ _ _ _ _ => @serve_step plainBcrypt anyHost _ _ _ _) h⟩

/-- How it ends: the run is computed once. -/
theorem bobRun_end :
    (bobRun.2.2.store.getSession bobRun.2.2.now bobToken,
      bobRun.2.2.store.users.lookup "bob") =
        (some ("bob", "editor"), none) := by decide +kernel

theorem bobRun_session :
    bobRun.2.2.store.getSession bobRun.2.2.now bobToken =
      some ("bob", "editor") := (Prod.mk.inj bobRun_end).1

theorem session_agreement_sample :
    ∃ i before after user, bobRun.1 = before ++
        .own i ⟨.store (.getUserByUsername "bob"), .ok user⟩ :: after ∧
      user.username = "bob" ∧ user.role = "editor" ∧
      (∃ e expiresAt, .own i e ∈ after ∧
        e.call = .store (.createSession bobToken "bob" "editor" expiresAt)) ∧
      (HoldsRole bobRun.2.2 "bob" "editor" ∨
        ∃ j e, .own j e ∈ after ∧ Revokes "bob" e) :=
  letI := labelSelectors
  letI := plainBcrypt
  letI := anyHost
  session_agreement "*" bobRequests bobRun_run.1 bobRun_run.2 rfl bobRun_session

/-- A deleted user is still signed in. -/
theorem deleted_user_keeps_session :
    letI := plainBcrypt
    letI := anyHost
    Interleaved bobProgs bobRun.1 ∧
    Run ServerSystem adminServer bobRun.1 bobRun.2.2 ∧
    adminServer.store.sessions = ∅ ∧
    bobRun.2.2.store.getSession bobRun.2.2.now bobToken =
      some ("bob", "editor") ∧
    bobRun.2.2.store.users.lookup "bob" = none :=
  ⟨bobRun_run.1, bobRun_run.2, rfl, bobRun_session,
    (Prod.mk.inj bobRun_end).2⟩

end Vexil.Server
