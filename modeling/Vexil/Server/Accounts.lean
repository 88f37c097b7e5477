import Vexil.Server.Access
import Vexil.Server.Bootstrap

/-!
# What requests do to accounts

The users, the sessions and the clock, and what a request that is served from
start to end does to them. Five routes change users or sessions. What one of
them did can be told from the request and its response, and that is an
`AccountEvent`; every other request, and every refused one, is `other`.

`AccountStep` says what an event means for the tables, without programs and
calls, and `occurs_account` that the server does nothing else. Results about
accounts are about this relation from there on.
-/

namespace Vexil.Server

open Vexil.Lib Vexil.Kube

/-! ## Accounts -/

structure Accounts where
  users : GoMap User
  sessions : GoMap MemSession
  now : Nat

namespace Accounts

def setUser (a : Accounts) (username : String) (user : User) : Accounts :=
  { a with users := a.users.insert username user }

def eraseUser (a : Accounts) (username : String) : Accounts :=
  { a with users := a.users.erase username }

def setSession (a : Accounts) (token : String) (sess : MemSession) : Accounts :=
  { a with sessions := a.sessions.insert token sess }

def eraseSession (a : Accounts) (token : String) : Accounts :=
  { a with sessions := a.sessions.erase token }

theorem setUser_setUser (a : Accounts) (username : String) (user user' : User) :
    (a.setUser username user).setUser username user' =
      a.setUser username user' := by
  simp only [setUser, Finmap.insert_insert]

end Accounts

/-- What a request did to accounts. In an update `""` leaves the role or the
password alone. -/
inductive AccountEvent where
  | login (token username password : String)
  | logout (token : String)
  | create (username password role : String)
  | update (username role password : String)
  | delete (username : String)
  | tick (now : Nat)
  | other
  deriving DecidableEq

section
variable [Bcrypt]

/-- The hash is one of this password. -/
def IsHash (hash password : String) : Prop :=
  ∃ salt, Bcrypt.generateFromPassword salt password = .ok hash

/-- What an event means. -/
def AccountStep (a : Accounts) : AccountEvent → Accounts → Prop
  | .login token username password, a' => ∃ user,
      a.users.lookup username = some user ∧
      Bcrypt.compareHashAndPassword user.passwordHash password = true ∧
      a' = a.setSession token ⟨username, user.role, a.now + tokenExpiry⟩
  | .logout token, a' => a' = a.eraseSession token
  | .create username password role, a' => a.users.lookup username = none ∧
      ∃ user : User, IsHash user.passwordHash password ∧ user.role = role ∧
        a' = a.setUser username user
  | .update username role password, a' => ∃ user user' : User,
      a.users.lookup username = some user ∧
      user'.role = (if role = "" then user.role else role) ∧
      (if password = "" then user'.passwordHash = user.passwordHash
        else IsHash user'.passwordHash password) ∧
      a' = a.setUser username user'
  | .delete username, a' => a.users.lookup username ≠ none ∧
      a' = a.eraseUser username
  | .tick now, a' => a' = { a with now := now }
  | .other, a' => a' = a

/-- What a start of the server means: the user `admin` has this password, and
the role it had before, else the role `admin`. -/
def StartStep (a : Accounts) (password : String) (a' : Accounts) : Prop :=
  ∃ user : User, IsHash user.passwordHash password ∧
    user.role = ((a.users.lookup "admin").map User.role).getD "admin" ∧
    a' = a.setUser "admin" user

end

/-! ## Reading a request and its response -/

/-- The pieces of the path that the router matches. -/
def pieces (req : Request) : List String :=
  segments (req.url.escapedPath.toList.tail.splitOn '/')

/-- The user in the path of an update or a deletion. -/
def targetOf (req : Request) : String :=
  pathValue ((matchSegments userPath (pieces req)).getD []) "username"

def loginOf (req : Request) (resp : Response) : AccountEvent :=
  match req.body.login, resp.body with
  | some body, .login token _ => .login token body.username body.password
  | _, _ => .other

def logoutOf (req : Request) (resp : Response) : AccountEvent :=
  if resp.status = 200 then .logout (extractBearerToken req) else .other

def createOf (req : Request) (resp : Response) : AccountEvent :=
  match req.body.createUser with
  | none => .other
  | some body =>
      if resp.status = 201 then .create body.username body.password body.role
      else .other

/-- A request that asks for nothing is one of these, too. -/
def updated (username role password : String) : AccountEvent :=
  if role = "" ∧ password = "" then .other else .update username role password

/-- The role is changed before the password is hashed, so an update that ends
there has changed the role. -/
def updateOf (req : Request) (resp : Response) : AccountEvent :=
  match req.body.updateUser with
  | none => .other
  | some body =>
      if resp.status = 200 then updated (targetOf req) body.role body.password
      else if resp.status = 500 then updated (targetOf req) body.role ""
      else .other

def deleteOf (req : Request) (resp : Response) : AccountEvent :=
  if resp.status = 200 then .delete (targetOf req) else .other

instance (req : Request) (method : String) (pattern : List Segment) :
    Decidable (Goes req method pattern) :=
  inferInstanceAs (Decidable (_ ∧ _))

/-- What a request that got this response did. -/
@[irreducible] def accountOf (req : Request) (resp : Response) : AccountEvent :=
  if Goes req "POST" loginPath then loginOf req resp
  else if Goes req "POST" logoutPath then logoutOf req resp
  else if Goes req "POST" usersPath then createOf req resp
  else if Goes req "PUT" userPath then updateOf req resp
  else if Goes req "DELETE" userPath then deleteOf req resp
  else .other

/-! ## The server, one request at a time -/

/-- A request served to its end, or a move of the rest of the world. -/
inductive Occurrence where
  | served (req : Request) (resp : Response)
  | move (w : ServerMove)

def Occurrence.account : Occurrence → AccountEvent
  | .served req resp => accountOf req resp
  | .move (.tick now) => .tick now
  | .move (.kube _ _) => .other

def ServerState.accounts (s : ServerState) : Accounts :=
  ⟨s.store.users, s.store.sessions, s.now⟩

section
variable [Bcrypt] [ClientGo] [Apimachinery]

def Occurs (origins : String) (s : ServerState) :
    Occurrence → ServerState → Prop
  | .served req resp, s' =>
      ∃ tr, Completes ServerStep (serve origins req) s tr resp s'
  | .move w, s' => s' = w.apply s

omit [Apimachinery] in
/-- A program that is computed. -/
theorem completes_of_exec {α : Type} {p : ServerProg α} {o : Oracle}
    {s : ServerState} {r : List ServerEvent × α × ServerState}
    (hr : p.exec (ServerCall.serve o) s = r) :
    Completes ServerStep p s r.1 r.2.1 r.2.2 := by
  subst hr
  exact (p.exec_completes (ServerCall.serve o) s).mono fun _ _ _ => serve_step

end

/-! ## Calls -/

/-- The calls that change accounts. -/
def ServerCall.isAccount : ServerCall → Bool
  | .store c =>
      match c with
      | .createUser _ | .updatePassword _ _ | .deleteUser _
      | .updateUserRole _ _ | .createSession _ _ _ _ | .deleteSession _ => true
      | _ => false
  | _ => false

section
variable [Bcrypt] [ClientGo] {s s' : ServerState}

theorem accounts_serverStep {e : ServerEvent} (h : ServerStep s e s')
    (hc : e.call.isAccount = false) : s'.accounts = s.accounts := by
  obtain ⟨c, r⟩ := e
  cases c with
  | store c =>
      obtain ⟨uuid, _, rfl⟩ := h
      cases c with
      | recordAudit | listAuditEvents | getUserByUsername | listUsers
      | getSession => rfl
      | _ => cases hc
  | clusters c =>
      obtain ⟨fault, order, _, _, rfl⟩ := h
      rfl
  | kube client c =>
      obtain ⟨k, _, rfl⟩ := h
      rfl
  | now | randRead n | generateFromPassword password =>
      obtain ⟨_, rfl⟩ := h
      rfl

theorem createUser_serverStep {user : User} {r : Except String Unit}
    (h : ServerStep s ⟨.store (.createUser user), r⟩ s') :
    (r = .error ("user already exists: " ++ user.username) ∧
      s.accounts.users.lookup user.username ≠ none ∧
      s'.accounts = s.accounts) ∨
    (r = .ok () ∧ s.accounts.users.lookup user.username = none ∧
      ∃ stored : User, stored.passwordHash = user.passwordHash ∧
        stored.role = user.role ∧
        s'.accounts = s.accounts.setUser user.username stored) := by
  obtain ⟨uuid, rfl, rfl⟩ := h
  simp only [StoreCall.serve, MemoryStore.createUser]
  split
  · next old hold =>
      refine .inl ⟨rfl, ?_, rfl⟩
      show s.store.users.lookup user.username ≠ none
      rw [hold]
      exact Option.some_ne_none old
  · next hnone =>
      refine .inr ⟨rfl, hnone, { user with
        id := if user.id = "" then uuid else user.id
        createdAt := user.createdAt.or (some s.now) }, rfl, rfl, rfl⟩

theorem deleteUser_serverStep {username : String} {r : Except String Unit}
    (h : ServerStep s ⟨.store (.deleteUser username), r⟩ s') :
    ((∃ err, r = .error err) ∧ s'.accounts = s.accounts) ∨
    (r = .ok () ∧ s.accounts.users.lookup username ≠ none ∧
      s'.accounts = s.accounts.eraseUser username) := by
  obtain ⟨uuid, rfl, rfl⟩ := h
  simp only [StoreCall.serve, MemoryStore.deleteUser]
  split
  · exact .inl ⟨⟨_, rfl⟩, rfl⟩
  · next user hsome =>
      refine .inr ⟨rfl, ?_, rfl⟩
      show s.store.users.lookup username ≠ none
      rw [hsome]
      exact Option.some_ne_none user

theorem updateUserRole_serverStep {username role : String}
    {r : Except String Unit}
    (h : ServerStep s ⟨.store (.updateUserRole username role), r⟩ s') :
    ((∃ err, r = .error err) ∧ s'.accounts = s.accounts) ∨
    (r = .ok () ∧ ∃ user, s.accounts.users.lookup username = some user ∧
      s'.accounts =
        s.accounts.setUser username { user with role := role }) := by
  obtain ⟨uuid, rfl, rfl⟩ := h
  simp only [StoreCall.serve, MemoryStore.updateUserRole]
  split
  · exact .inl ⟨⟨_, rfl⟩, rfl⟩
  · next user hsome => exact .inr ⟨rfl, user, hsome, rfl⟩

theorem updatePassword_serverStep {username hash : String}
    {r : Except String Unit}
    (h : ServerStep s ⟨.store (.updatePassword username hash), r⟩ s') :
    ((∃ err, r = .error err) ∧ s.accounts.users.lookup username = none ∧
      s'.accounts = s.accounts) ∨
    (r = .ok () ∧ ∃ user, s.accounts.users.lookup username = some user ∧
      s'.accounts =
        s.accounts.setUser username { user with passwordHash := hash }) := by
  obtain ⟨uuid, rfl, rfl⟩ := h
  simp only [StoreCall.serve, MemoryStore.updatePassword]
  split
  · next hnone => exact .inl ⟨⟨_, rfl⟩, hnone, rfl⟩
  · next user hsome => exact .inr ⟨rfl, user, hsome, rfl⟩

theorem createSession_serverStep {token username role : String}
    {expiresAt : Nat} {r : Except String Unit}
    (h : ServerStep s
      ⟨.store (.createSession token username role expiresAt), r⟩ s') :
    r = .ok () ∧ s'.accounts =
      s.accounts.setSession token ⟨username, role, expiresAt⟩ := by
  obtain ⟨uuid, rfl, rfl⟩ := h
  exact ⟨rfl, rfl⟩

theorem deleteSession_serverStep {token : String} {r : Except String Unit}
    (h : ServerStep s ⟨.store (.deleteSession token), r⟩ s') :
    s'.accounts = s.accounts.eraseSession token := by
  obtain ⟨uuid, _, rfl⟩ := h
  rfl

/-! ## Handlers -/

variable {req : Request} {ctx : UserContext} {values : String → String}
variable {tr : List ServerEvent} {resp : Response}

theorem login_accounts (ctx : UserContext) (values : String → String)
    (h : Completes ServerStep (AuthHandler.login req ctx values) s tr resp s') :
    AccountStep s.accounts (loginOf req resp) s'.accounts := by
  have refused : ∀ status message, resp = writeError status message →
      s'.accounts = s.accounts →
        AccountStep s.accounts (loginOf req resp) s'.accounts := by
    rintro status message rfl hsame
    have hother : loginOf req (writeError status message) = .other := by
      unfold loginOf
      cases req.body.login <;> rfl
    rw [hother]
    exact hsame
  unfold AuthHandler.login at h
  split at h
  · obtain ⟨_, rfl, rfl⟩ := completes_ret.mp h
    exact refused _ _ rfl rfl
  · next body hbody =>
      split at h
      · obtain ⟨_, rfl, rfl⟩ := completes_ret.mp h
        exact refused _ _ rfl rfl
      · obtain ⟨found, _, m, _, hfind, hrest⟩ := completes_call.mp h
        have hm := accounts_serverStep hfind rfl
        cases found with
        | error err =>
            obtain ⟨_, rfl, rfl⟩ := completes_ret.mp hrest
            exact refused _ _ rfl hm
        | ok user =>
            obtain ⟨hlookup, rfl⟩ := getUser_serverStep hfind
            dsimp only at hrest
            split at hrest
            · next hcompare =>
                obtain ⟨bytes, _, m₁, _, hrand, hrest⟩ :=
                  completes_call.mp hrest
                have hm₁ := accounts_serverStep hrand rfl
                cases bytes with
                | error err =>
                    obtain ⟨_, rfl, rfl⟩ := completes_ret.mp hrest
                    exact refused _ _ rfl hm₁
                | ok b =>
                    obtain ⟨now, _, m₂, _, hnow, hrest⟩ :=
                      completes_call.mp hrest
                    have hm₂ := accounts_serverStep hnow rfl
                    obtain ⟨done, _, m₃, _, hcreate, hrest⟩ :=
                      completes_call.mp hrest
                    obtain ⟨rfl, hm₃⟩ := createSession_serverStep hcreate
                    obtain ⟨_, rfl, rfl⟩ := completes_ret.mp hrest
                    have htime : now = m.accounts.now := by
                      rw [← hm₁]
                      exact hnow.1
                    have hevent : loginOf req (writeJSON 200
                        (.login (hexEncode b) ⟨user.username, user.role⟩)) =
                        .login (hexEncode b) body.username body.password := by
                      unfold loginOf
                      rw [hbody]
                      rfl
                    rw [hevent]
                    refine ⟨user, hlookup, hcompare, ?_⟩
                    rw [hm₃, hm₂, hm₁, htime, m.store.keyed _ _ hlookup]
            · obtain ⟨_, rfl, rfl⟩ := completes_ret.mp hrest
              exact refused _ _ rfl rfl

theorem logout_accounts (ctx : UserContext) (values : String → String)
    (h : Completes ServerStep (AuthHandler.logout req ctx values) s tr resp
      s') :
    AccountStep s.accounts (logoutOf req resp) s'.accounts := by
  unfold AuthHandler.logout at h
  dsimp only at h
  split at h
  · obtain ⟨_, rfl, rfl⟩ := completes_ret.mp h
    rfl
  · obtain ⟨_, _, m, _, hdelete, h⟩ := completes_call.mp h
    obtain ⟨_, rfl, rfl⟩ := completes_ret.mp h
    exact deleteSession_serverStep hdelete

theorem createUser_accounts
    (h : Completes ServerStep (AuthHandler.createUser req ctx values) s tr
      resp s') :
    AccountStep s.accounts (createOf req resp) s'.accounts := by
  have refused : ∀ status message, resp = writeError status message →
      status ≠ 201 → s'.accounts = s.accounts →
        AccountStep s.accounts (createOf req resp) s'.accounts := by
    rintro status message rfl hstatus hsame
    have hother : createOf req (writeError status message) = .other := by
      unfold createOf
      cases req.body.createUser with
      | none => rfl
      | some body => exact if_neg hstatus
    rw [hother]
    exact hsame
  unfold AuthHandler.createUser at h
  split at h
  · obtain ⟨_, rfl, rfl⟩ := completes_ret.mp h
    exact refused _ _ rfl (by decide) rfl
  · split at h
    · obtain ⟨_, rfl, rfl⟩ := completes_ret.mp h
      exact refused _ _ rfl (by decide) rfl
    · next body hbody =>
        split at h
        · obtain ⟨_, rfl, rfl⟩ := completes_ret.mp h
          exact refused _ _ rfl (by decide) rfl
        · split at h
          · obtain ⟨_, rfl, rfl⟩ := completes_ret.mp h
            exact refused _ _ rfl (by decide) rfl
          · obtain ⟨hashed, _, m, _, hhash, h⟩ := completes_call.mp h
            have hm := accounts_serverStep hhash rfl
            cases hashed with
            | error err =>
                obtain ⟨_, rfl, rfl⟩ := completes_ret.mp h
                exact refused _ _ rfl (by decide) hm
            | ok hash =>
                obtain ⟨done, _, m', _, hcreate, h⟩ := completes_call.mp h
                rcases createUser_serverStep hcreate with
                  ⟨rfl, _, hm'⟩ | ⟨rfl, hnone, stored, hpass, hrole, hm'⟩
                · obtain ⟨_, rfl, rfl⟩ := completes_ret.mp h
                  exact refused _ _ rfl (by decide) (hm'.trans hm)
                · obtain ⟨_, rfl, rfl⟩ := completes_ret.mp h
                  rw [hm] at hnone hm'
                  obtain ⟨⟨salt, hsalt⟩, _⟩ := hhash
                  unfold createOf
                  rw [hbody]
                  exact ⟨hnone, stored, ⟨salt, hpass ▸ hsalt.symm⟩, hrole, hm'⟩

theorem deleteUser_accounts (htarget : values "username" = targetOf req)
    (h : Completes ServerStep (AuthHandler.deleteUser req ctx values) s tr
      resp s') :
    AccountStep s.accounts (deleteOf req resp) s'.accounts := by
  unfold AuthHandler.deleteUser at h
  dsimp only at h
  split at h
  · obtain ⟨_, rfl, rfl⟩ := completes_ret.mp h
    rfl
  · split at h
    · obtain ⟨_, rfl, rfl⟩ := completes_ret.mp h
      rfl
    · obtain ⟨done, _, m, _, hdelete, h⟩ := completes_call.mp h
      rw [htarget] at hdelete
      rcases deleteUser_serverStep hdelete with
        ⟨⟨err, rfl⟩, hm⟩ | ⟨rfl, hsome, hm⟩
      · obtain ⟨_, rfl, rfl⟩ := completes_ret.mp h
        exact hm
      · obtain ⟨_, rfl, rfl⟩ := completes_ret.mp h
        exact ⟨hsome, hm⟩

/-- The end of an update, with the user as the change of role left it. -/
theorem changePassword_accounts {target password text : String}
    (h : Completes ServerStep (AuthHandler.changePassword target password
      (.ret (writeJSON 200 (.message text)))) s tr resp s') :
    (resp.status = 200 ∧ password = "" ∧ s'.accounts = s.accounts) ∨
    (resp.status = 200 ∧ password ≠ "" ∧ ∃ user hash,
      s.accounts.users.lookup target = some user ∧ IsHash hash password ∧
      s'.accounts =
        s.accounts.setUser target { user with passwordHash := hash }) ∨
    (resp.status = 500 ∧ s'.accounts = s.accounts) ∨
    (resp.status = 404 ∧ s.accounts.users.lookup target = none ∧
      s'.accounts = s.accounts) := by
  unfold AuthHandler.changePassword at h
  split at h
  · next hempty =>
      obtain ⟨_, rfl, rfl⟩ := completes_ret.mp h
      exact .inl ⟨rfl, hempty, rfl⟩
  · next hne =>
      obtain ⟨hashed, _, m, _, hhash, h⟩ := completes_call.mp h
      have hm := accounts_serverStep hhash rfl
      cases hashed with
      | error err =>
          obtain ⟨_, rfl, rfl⟩ := completes_ret.mp h
          exact .inr (.inr (.inl ⟨rfl, hm⟩))
      | ok hash =>
          obtain ⟨⟨salt, hsalt⟩, _⟩ := hhash
          obtain ⟨done, _, m', _, hupdate, h⟩ := completes_call.mp h
          rcases updatePassword_serverStep hupdate with
            ⟨⟨err, rfl⟩, hnone, hm'⟩ | ⟨rfl, user, hsome, hm'⟩
          · obtain ⟨_, rfl, rfl⟩ := completes_ret.mp h
            rw [hm] at hnone hm'
            exact .inr (.inr (.inr ⟨rfl, hnone, hm'⟩))
          · obtain ⟨_, rfl, rfl⟩ := completes_ret.mp h
            rw [hm] at hsome hm'
            exact .inr (.inl ⟨rfl, hne, user, hash, hsome, ⟨salt, hsalt.symm⟩,
              hm'⟩)

/-- An update goes through, fails after its change of role, or is refused. -/
def UpdateEnds (target role password : String) (status : Nat)
    (a a' : Accounts) : Prop :=
  (status = 200 ∧ AccountStep a (updated target role password) a') ∨
    (status = 500 ∧ AccountStep a (updated target role "") a') ∨
    (status ∉ [200, 500] ∧ a' = a)

/-- Without a role, an update is the change of the password. -/
theorem changePassword_ends {target password text : String}
    (h : Completes ServerStep (AuthHandler.changePassword target password
      (.ret (writeJSON 200 (.message text)))) s tr resp s') :
    UpdateEnds target "" password resp.status s.accounts s'.accounts := by
  rcases changePassword_accounts h with ⟨hs, hpass, hm⟩ |
    ⟨hs, hpass, user, hash, hsome, hhash, hm⟩ | ⟨hs, hm⟩ | ⟨hs, _, hm⟩
  · refine .inl ⟨hs, ?_⟩
    rw [updated, if_pos ⟨rfl, hpass⟩]
    exact hm
  · refine .inl ⟨hs, ?_⟩
    rw [updated, if_neg fun hno => hpass hno.2]
    refine ⟨user, _, hsome, ?_, ?_, hm⟩
    · rw [if_pos rfl]
    · rw [if_neg hpass]
      exact hhash
  · refine .inr (.inl ⟨hs, ?_⟩)
    rw [updated, if_pos ⟨rfl, rfl⟩]
    exact hm
  · exact .inr (.inr ⟨by rw [hs]; decide, hm⟩)

/-- The change of the password comes after a change of role. -/
theorem changePassword_ends_of_role {target role password text : String}
    {m : ServerState} {user : User} (hrole : role ≠ "")
    (hsome : s.accounts.users.lookup target = some user)
    (hm : m.accounts = s.accounts.setUser target { user with role := role })
    (h : Completes ServerStep (AuthHandler.changePassword target password
      (.ret (writeJSON 200 (.message text)))) m tr resp s') :
    UpdateEnds target role password resp.status s.accounts s'.accounts := by
  have hnow : m.accounts.users.lookup target =
      some { user with role := role } := by
    rw [hm]
    exact Finmap.lookup_insert _
  have hboth : ∀ password, updated target role password =
      .update target role password :=
    fun password => if_neg fun hno => hrole hno.1
  rcases changePassword_accounts h with ⟨hs, hpass, hm'⟩ |
    ⟨hs, hpass, user', hash, hsome', hhash, hm'⟩ | ⟨hs, hm'⟩ | ⟨_, hnone, _⟩
  · refine .inl ⟨hs, ?_⟩
    rw [hboth]
    refine ⟨user, _, hsome, ?_, ?_, hm'.trans hm⟩
    · rw [if_neg hrole]
    · rw [if_pos hpass]
  · rw [hnow] at hsome'
    cases hsome'
    rw [hm, Accounts.setUser_setUser] at hm'
    refine .inl ⟨hs, ?_⟩
    rw [hboth]
    refine ⟨user, _, hsome, ?_, ?_, hm'⟩
    · rw [if_neg hrole]
    · rw [if_neg hpass]
      exact hhash
  · refine .inr (.inl ⟨hs, ?_⟩)
    rw [hboth]
    refine ⟨user, _, hsome, ?_, ?_, hm'.trans hm⟩
    · rw [if_neg hrole]
    · rw [if_pos rfl]
  · rw [hnow] at hnone
    cases hnone

theorem changeRole_ends {target role password text : String}
    (h : Completes ServerStep (AuthHandler.changeRole target role
      (AuthHandler.changePassword target password
        (.ret (writeJSON 200 (.message text))))) s tr resp s') :
    UpdateEnds target role password resp.status s.accounts s'.accounts := by
  unfold AuthHandler.changeRole at h
  split at h
  · next hempty =>
      subst hempty
      exact changePassword_ends h
  · next hrole =>
      split at h
      · obtain ⟨_, rfl, rfl⟩ := completes_ret.mp h
        exact .inr (.inr ⟨by decide, rfl⟩)
      · obtain ⟨done, _, m, _, hupdate, h⟩ := completes_call.mp h
        rcases updateUserRole_serverStep hupdate with
          ⟨⟨err, rfl⟩, hm⟩ | ⟨rfl, user, hsome, hm⟩
        · obtain ⟨_, rfl, rfl⟩ := completes_ret.mp h
          have hrefused : (writeError 404 err).status ∉ [200, 500] :=
            show 404 ∉ [200, 500] by decide
          exact .inr (.inr ⟨hrefused, hm⟩)
        · exact changePassword_ends_of_role hrole hsome hm h

theorem updateUser_accounts (htarget : values "username" = targetOf req)
    (h : Completes ServerStep (AuthHandler.updateUser req ctx values) s tr
      resp s') :
    AccountStep s.accounts (updateOf req resp) s'.accounts := by
  have refused : resp.status ∉ [200, 500] → s'.accounts = s.accounts →
      AccountStep s.accounts (updateOf req resp) s'.accounts := by
    intro hstatus hsame
    have hother : updateOf req resp = .other := by
      unfold updateOf
      cases req.body.updateUser with
      | none => rfl
      | some body =>
          dsimp only
          rw [if_neg fun hok => hstatus (by rw [hok]; decide),
            if_neg fun hfailed => hstatus (by rw [hfailed]; decide)]
    rw [hother]
    exact hsame
  unfold AuthHandler.updateUser at h
  dsimp only at h
  rw [htarget] at h
  split at h
  · obtain ⟨_, rfl, rfl⟩ := completes_ret.mp h
    exact refused (by decide) rfl
  · next body hbody =>
      split at h
      · obtain ⟨_, rfl, rfl⟩ := completes_ret.mp h
        exact refused (by decide) rfl
      · split at h
        · obtain ⟨_, rfl, rfl⟩ := completes_ret.mp h
          exact refused (by decide) rfl
        · rcases changeRole_ends h with ⟨hok, hstep⟩ | ⟨hfailed, hstep⟩ |
            ⟨hstatus, hsame⟩
          · unfold updateOf
            rw [hbody]
            dsimp only
            rw [if_pos hok]
            exact hstep
          · unfold updateOf
            rw [hbody]
            dsimp only
            rw [if_neg (by omega), if_pos hfailed]
            exact hstep
          · exact refused hstatus hsame

/-! ## Routes -/

/-- A response that does not tell of a change. -/
def Refused (resp : Response) : Prop :=
  resp.status ∉ [200, 201, 500] ∧ ∀ token me, resp.body ≠ .login token me

omit [Bcrypt] [ClientGo] in
theorem loginOf_refused (h : Refused resp) : loginOf req resp = .other := by
  unfold loginOf
  split
  · next token me _ hbody => exact absurd hbody (h.2 _ _)
  · rfl

omit [Bcrypt] [ClientGo] in
theorem logoutOf_refused (h : Refused resp) : logoutOf req resp = .other :=
  if_neg fun hs => h.1 (by simp [hs])

omit [Bcrypt] [ClientGo] in
theorem createOf_refused (h : Refused resp) : createOf req resp = .other := by
  unfold createOf
  split
  · rfl
  · exact if_neg fun hs => h.1 (by simp [hs])

omit [Bcrypt] [ClientGo] in
theorem updateOf_refused (h : Refused resp) : updateOf req resp = .other := by
  unfold updateOf
  split
  · rfl
  · rw [if_neg fun hs => h.1 (by simp [hs]),
      if_neg fun hs => h.1 (by simp [hs])]

omit [Bcrypt] [ClientGo] in
theorem deleteOf_refused (h : Refused resp) : deleteOf req resp = .other :=
  if_neg fun hs => h.1 (by simp [hs])

omit [Bcrypt] [ClientGo] in
theorem refused_unauthorized {headers : List (String × String)} :
    Refused { unauthorized with headers := headers } := by
  refine ⟨?_, nofun⟩
  show 401 ∉ [200, 201, 500]
  decide

/-- The routes do not both match. -/
def Exclusive (segs : List String) (r r' : Route Handler) : Prop :=
  r.method = r'.method → ¬ ((matchSegments r.pattern segs).isSome ∧
    (matchSegments r'.pattern segs).isSome)

instance (segs : List String) : Std.Symm (Exclusive segs) :=
  ⟨fun _ _ hab hm hboth => hab hm.symm hboth.symm⟩

variable [Apimachinery]

omit [ClientGo] in
theorem route_unique {r r' : Route Handler} {segs : List String}
    (hr : r ∈ routes) (hr' : r' ∈ routes) (hmethod : r.method = r'.method)
    (h : (matchSegments r.pattern segs).isSome)
    (h' : (matchSegments r'.pattern segs).isSome) : r = r' := by
  have hapart : (routes : List (Route Handler)).Pairwise (Exclusive segs) := by
    refine (@routes_exclusive _ _ segs).imp ?_
    rintro a b hab hm ⟨ha, hb⟩
    rw [hab hm ha] at hb
    cases hb
  by_contra hne
  exact hapart.forall hr hr' hne hmethod ⟨h, h'⟩

/-- A request for a route that writes gets to its handler, or is refused. -/
theorem mux_route {route : Route Handler} (hmem : route ∈ routes)
    (hwrites : route.method ∈ ["POST", "PUT", "DELETE"])
    (hg : Goes req route.method route.pattern)
    (h : Completes ServerStep (mux req ctx) s tr resp s') :
    (s' = s ∧ Refused resp) ∨ ∃ values,
      matchSegments route.pattern (pieces req) = some values ∧
      Completes ServerStep (route.handler req ctx (pathValue values)) s tr
        resp s' := by
  unfold mux at h
  split at h
  · next hd values hserve =>
      obtain ⟨r, hr, rfl, hmethod, hmatch, _⟩ := serveMux_handler hserve
      have hsame : r = route := by
        rcases hmethod with hm | ⟨hhead, _⟩
        · exact route_unique hr hmem (hm.trans hg.1) (by rw [hmatch]; rfl) hg.2
        · rw [← hg.1, hhead] at hwrites
          exact absurd hwrites (by decide)
      subst hsame
      exact .inr ⟨values, hmatch, h⟩
  · obtain ⟨_, rfl, rfl⟩ := completes_ret.mp h
    exact .inl ⟨rfl, by decide, nofun⟩
  · obtain ⟨_, rfl, rfl⟩ := completes_ret.mp h
    refine .inl ⟨rfl, ?_, nofun⟩
    show 405 ∉ [200, 201, 500]
    decide
  · obtain ⟨_, rfl, rfl⟩ := completes_ret.mp h
    exact .inl ⟨rfl, by decide, nofun⟩
  · obtain ⟨_, rfl, rfl⟩ := completes_ret.mp h
    exact .inl ⟨rfl, by decide, nofun⟩

/-- From the outside: what the handler of a route does, by its response, the
server does. -/
theorem serve_route {origins : String} {route : Route Handler}
    {event : Response → AccountEvent} (hmem : route ∈ routes)
    (hwrites : route.method ∈ ["POST", "PUT", "DELETE"])
    (hg : Goes req route.method route.pattern)
    (hrefused : ∀ resp, Refused resp → event resp = .other)
    (hheaders : ∀ resp headers,
      event { resp with headers := headers } = event resp)
    (hhandler : ∀ ctx values s tr resp s',
      matchSegments route.pattern (pieces req) = some values →
      Completes ServerStep (route.handler req ctx (pathValue values)) s tr
        resp s' → AccountStep s.accounts (event resp) s'.accounts)
    (h : Completes ServerStep (serve origins req) s tr resp s') :
    AccountStep s.accounts (event resp) s'.accounts := by
  have other : ∀ resp, Refused resp → s'.accounts = s.accounts →
      AccountStep s.accounts (event resp) s'.accounts := by
    intro resp hresp hsame
    rw [hrefused resp hresp]
    exact hsame
  have hoptions : req.method ≠ "OPTIONS" := by
    rw [hg.1]
    rintro hm
    rw [hm] at hwrites
    exact absurd hwrites (by decide)
  unfold serve cors at h
  dsimp only at h
  rw [if_neg hoptions] at h
  obtain ⟨resp', tr', _, m, _, h, hret⟩ := completes_bind h
  obtain ⟨_, rfl, rfl⟩ := completes_ret.mp hret
  rw [hheaders]
  unfold auth at h
  split at h
  · rcases mux_route hmem hwrites hg h with
      ⟨rfl, hresp⟩ | ⟨values, hvalues, h⟩
    · exact other resp' hresp rfl
    · exact hhandler _ _ _ _ _ _ hvalues h
  · dsimp only at h
    split at h
    · obtain ⟨_, rfl, rfl⟩ := completes_ret.mp h
      exact other _ refused_unauthorized rfl
    · obtain ⟨sess, _, m, _, hget, h⟩ := completes_call.mp h
      have hm := accounts_serverStep hget rfl
      cases sess with
      | none =>
          obtain ⟨_, rfl, rfl⟩ := completes_ret.mp h
          exact other _ refused_unauthorized hm
      | some sess =>
          rcases mux_route hmem hwrites hg h with
            ⟨rfl, hresp⟩ | ⟨values, hvalues, h⟩
          · exact other resp' hresp hm
          · rw [← hm]
            exact hhandler _ _ _ _ _ _ hvalues h

omit [Apimachinery] in
/-- What a handler does, it does behind `RequireRole`. -/
theorem requireRole_accounts {roles : List String} {next : Handler}
    {event : Response → AccountEvent}
    (hrefused : ∀ resp, Refused resp → event resp = .other)
    (hnext : Completes ServerStep (next req ctx values) s tr resp s' →
      AccountStep s.accounts (event resp) s'.accounts)
    (h : Completes ServerStep (requireRole roles next req ctx values) s tr
      resp s') : AccountStep s.accounts (event resp) s'.accounts := by
  unfold requireRole at h
  split at h
  · exact hnext h
  · obtain ⟨_, rfl, rfl⟩ := completes_ret.mp h
    have hresp : Refused (writeError 403 "insufficient permissions") := by
      refine ⟨by decide, ?_⟩
      intro token me hbody
      cases hbody
    rw [hrefused _ hresp]
    rfl

/-! ## Every request -/

/-- The routes that change accounts. -/
def accountRoutes : List (String × List Segment) :=
  [("POST", loginPath), ("POST", logoutPath), ("POST", usersPath),
    ("PUT", userPath), ("DELETE", userPath)]

omit [ClientGo] [Apimachinery] in
theorem goes_of_account {h : List ServerEvent} {c : ServerCall}
    (hc : Allowed req h c) (hcall : c.isAccount = true) :
    ∃ route ∈ accountRoutes, Goes req route.1 route.2 := by
  have route : ∀ m p, (m, p) ∈ accountRoutes → Goes req m p →
      ∃ route ∈ accountRoutes, Goes req route.1 route.2 :=
    fun m p hmem hg => ⟨(m, p), hmem, hg⟩
  cases c with
  | store c =>
      cases c with
      | createUser | deleteUser | updateUserRole | updatePassword
      | createSession | deleteSession =>
          exact route _ _ (by simp [accountRoutes]) hc.1
      | _ => cases hcall
  | _ => cases hcall

theorem accounts_of_not_goes {origins : String}
    (hno : ∀ route ∈ accountRoutes, ¬ Goes req route.1 route.2)
    (h : Completes ServerStep (serve origins req) s tr resp s') :
    s'.accounts = s.accounts := by
  refine h.2.keeps fun e he m m' hstep => accounts_serverStep hstep ?_
  obtain ⟨pre, post, rfl⟩ := List.append_of_mem he
  have hallowed := h.1.call_along (serve_along origins req)
  cases hcall : e.call.isAccount with
  | false => rfl
  | true =>
      obtain ⟨route, hmem, hg⟩ := goes_of_account hallowed hcall
      exact absurd hg (hno route hmem)

/-- A request of the server does what it and its response tell, and nothing
else. -/
theorem served_account {origins : String}
    (h : Completes ServerStep (serve origins req) s tr resp s') :
    AccountStep s.accounts (accountOf req resp) s'.accounts := by
  have target : ∀ values, matchSegments userPath (pieces req) = some values →
      pathValue values "username" = targetOf req := by
    intro values hvalues
    rw [targetOf, hvalues]
    rfl
  -- the position of the route in the table, and of its method
  unfold accountOf
  split
  · next hg =>
      refine serve_route (.head _) (.head _) hg (fun _ => loginOf_refused)
        (fun _ _ => rfl) ?_ h
      intro ctx values s tr resp s' _ h
      exact login_accounts ctx (pathValue values) h
  split
  · next hg =>
      refine serve_route (.tail _ (.head _)) (.head _) hg
        (fun _ => logoutOf_refused) (fun _ _ => rfl) ?_ h
      intro ctx values s tr resp s' _ h
      exact logout_accounts ctx (pathValue values) h
  split
  · next hg =>
      refine serve_route (List.mem_of_getElem? (i := 4) rfl) (.head _) hg
        (fun _ => createOf_refused) (fun _ _ => rfl) ?_ h
      intro ctx values s tr resp s' _ h
      exact requireRole_accounts (fun _ => createOf_refused)
        createUser_accounts h
  split
  · next hg =>
      refine serve_route (List.mem_of_getElem? (i := 5) rfl)
        (.tail _ (.head _)) hg (fun _ => updateOf_refused) (fun _ _ => rfl) ?_ h
      intro ctx values s tr resp s' hvalues h
      exact updateUser_accounts (target values hvalues) h
  split
  · next hg =>
      refine serve_route (List.mem_of_getElem? (i := 6) rfl)
        (.tail _ (.tail _ (.head _))) hg (fun _ => deleteOf_refused)
        (fun _ _ => rfl) ?_ h
      intro ctx values s tr resp s' hvalues h
      exact requireRole_accounts (fun _ => deleteOf_refused)
        (deleteUser_accounts (target values hvalues)) h
  · next hlogin hlogout hcreate hupdate hdelete =>
      refine accounts_of_not_goes ?_ h
      simp only [accountRoutes, List.mem_cons, List.not_mem_nil, or_false]
      rintro route (rfl | rfl | rfl | rfl | rfl)
      · exact hlogin
      · exact hlogout
      · exact hcreate
      · exact hupdate
      · exact hdelete

theorem occurs_account {origins : String} {o : Occurrence}
    (h : Occurs origins s o s') :
    AccountStep s.accounts o.account s'.accounts := by
  cases o with
  | served req resp =>
      obtain ⟨tr, h⟩ := h
      exact served_account h
  | move w =>
      have hs : s' = w.apply s := h
      subst hs
      cases w with
      | kube client w => rfl
      | tick now => rfl

/-! ## A start -/

omit [Apimachinery] in
theorem adminPassword_accounts {flag env : String} {r : Except String String}
    (h : Completes ServerStep (adminPassword flag env) s tr r s') :
    s'.accounts = s.accounts := by
  unfold adminPassword at h
  split at h
  · obtain ⟨_, rfl, rfl⟩ := completes_ret.mp h
    rfl
  · split at h
    · obtain ⟨_, rfl, rfl⟩ := completes_ret.mp h
      rfl
    · obtain ⟨bytes, _, m, _, hrand, h⟩ := completes_call.mp h
      have hm := accounts_serverStep hrand rfl
      cases bytes with
      | error err =>
          obtain ⟨_, rfl, rfl⟩ := completes_ret.mp h
          exact hm
      | ok b =>
          obtain ⟨_, rfl, rfl⟩ := completes_ret.mp h
          exact hm

omit [Apimachinery] in
theorem createAdmin_accounts {password : String}
    (h : Completes ServerStep (createAdmin password) s tr (.ok ()) s') :
    StartStep s.accounts password s'.accounts := by
  obtain ⟨hashed, _, m, _, hhash, h⟩ := completes_call.mp h
  have hm := accounts_serverStep hhash rfl
  cases hashed with
  | error err =>
      obtain ⟨_, hno, _⟩ := completes_ret.mp h
      cases hno
  | ok hash =>
      obtain ⟨⟨salt, hsalt⟩, _⟩ := hhash
      obtain ⟨done, _, m', _, hcreate, h⟩ := completes_call.mp h
      rcases createUser_serverStep hcreate with
        ⟨rfl, _, hm'⟩ | ⟨rfl, hnone, user, hpass, hrole, hm'⟩
      · have hexists : contains ("user already exists: " ++ "admin")
            "already exists" = true := by decide +kernel
        dsimp only at h
        rw [if_pos hexists] at h
        obtain ⟨done, _, m'', _, hupdate, h⟩ := completes_call.mp h
        rcases updatePassword_serverStep hupdate with
          ⟨⟨err, rfl⟩, _, _⟩ | ⟨rfl, user, hsome, hm''⟩
        · obtain ⟨_, hno, _⟩ := completes_ret.mp h
          cases hno
        · obtain ⟨_, _, rfl⟩ := completes_ret.mp h
          rw [hm'.trans hm] at hsome hm''
          refine ⟨_, ⟨salt, hsalt.symm⟩, ?_, hm''⟩
          rw [hsome]
          rfl
      · obtain ⟨_, _, rfl⟩ := completes_ret.mp h
        rw [hm] at hnone hm'
        refine ⟨user, ⟨salt, hpass ▸ hsalt.symm⟩, ?_, hm'⟩
        rw [hnone]
        exact hrole

omit [Apimachinery] in
theorem bootstrap_accounts {flag env password : String}
    (h : Completes ServerStep (bootstrap flag env) s tr (.ok password) s') :
    StartStep s.accounts password s'.accounts := by
  obtain ⟨chosen, _, _, m, _, hchoose, h⟩ := completes_bind h
  have hm := adminPassword_accounts hchoose
  cases chosen with
  | error err =>
      obtain ⟨_, hno, _⟩ := completes_ret.mp h
      cases hno
  | ok password' =>
      obtain ⟨created, _, _, m', _, hcreate, h⟩ := completes_bind h
      cases created with
      | error err =>
          obtain ⟨_, hno, _⟩ := completes_ret.mp h
          cases hno
      | ok u =>
          obtain ⟨_, hpass, rfl⟩ := completes_ret.mp h
          cases hpass
          rw [← hm]
          exact createAdmin_accounts hcreate

end

end Vexil.Server
