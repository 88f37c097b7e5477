import Vexil.Lib.PlainPath
import Vexil.Proofs.ConsoleIdentity
import Vexil.Proofs.QueryCalls
import Vexil.Web.Controls

/-!
# What is offered and what is allowed

The console decides by the user in a tab which controls to show, the server
decides by the session of the token what to refuse, and the two were written
down separately. They agree, but for two things a viewer is shown and refused:
the workloads are in everybody's menu, and a click on the name of a flag opens
the form to edit it for everybody. For every other control, a request that the
console makes is refused exactly if the control is not shown, whatever happens
in between: roles that are changed after the sign-in change neither the session
nor what the tab shows.

A refusal is told apart from other failures by what a handler can return at all
(`Prog.Returns`). That there are three roles only, those the two tables speak
of, is an invariant of the server (`Roled`).
-/

namespace Vexil.Web

open Vexil.Lib Vexil.Kube Vexil.Server

/-- The server does not let this user do it. -/
def Denied (resp : Response) : Prop :=
  resp.status = 403 ∨
    resp.status = 400 ∧ resp.body = .error "cannot delete yourself"

/-! ## What the handlers answer -/

/-- Whatever it returns is no refusal. -/
def Allows (p : ServerProg Response) : Prop :=
  p.Returns fun resp => ¬Denied resp

section
variable {req : Request} {ctx : UserContext} {pathValue : String → String}

theorem not_denied {status : Nat} {body : ResponseBody} (hstatus : status ≠ 403)
    (hbody : status ≠ 400 ∨ body ≠ .error "cannot delete yourself") :
    ¬Denied (writeJSON status body) := by
  intro h
  rcases h with h | ⟨hbad, hself⟩
  · exact hstatus h
  · rcases hbody with hbody | hbody
    · exact hbody hbad
    · exact hbody hself

theorem not_denied_ok {status : Nat} {body : ResponseBody} (h : status < 400) :
    ¬Denied (writeJSON status body) :=
  not_denied (by omega) (.inl (by omega))

/-- The errors a handler has but for its refusals. -/
theorem not_denied_error {status : Nat} {message : String} (h : 403 < status) :
    ¬Denied (writeError status message) :=
  not_denied (by omega) (.inl (by omega))

theorem not_denied_bad {message : String}
    (h : message ≠ "cannot delete yourself") :
    ¬Denied (writeError 400 message) := by
  refine not_denied (by decide) (.inr ?_)
  intro hbody
  cases hbody
  exact h rfl

theorem withClient_allows {id notFound : String}
    {k : Endpoint → ServerProg Response} (hk : ∀ client, Allows (k client)) :
    Allows (withClient id notFound k) := by
  intro found
  cases found with
  | error err => exact not_denied_error (by decide)
  | ok client => exact hk client

theorem withFlag_allows {k : Endpoint → FeatureFlag → ServerProg Response}
    (hk : ∀ client flag, Allows (k client flag)) :
    Allows (FlagHandler.withFlag req pathValue k) := by
  unfold FlagHandler.withFlag
  dsimp only
  split
  · exact not_denied_bad (by decide)
  · refine withClient_allows fun client => ?_
    intro found
    cases found with
    | error err => exact not_denied_error (by decide)
    | ok flag => exact hk client flag

theorem writeFlag_allows {verb action : String} {client : Endpoint}
    {flag : FeatureFlag} : Allows
      (FlagHandler.writeFlag req pathValue verb action client flag) := by
  intro done
  cases done with
  | error err => exact not_denied_error (by decide)
  | ok flag =>
      intro _
      exact not_denied_ok (by decide)

theorem updateFlag_allows : Allows (FlagHandler.update req ctx pathValue) := by
  refine withFlag_allows fun client flag => ?_
  split
  · exact not_denied_bad (by decide)
  · exact writeFlag_allows

theorem toggleFlag_allows : Allows (FlagHandler.toggle req ctx pathValue) := by
  refine withFlag_allows fun client flag => ?_
  split
  · exact not_denied_bad (by decide)
  · exact writeFlag_allows

theorem deleteFlag_allows : Allows (FlagHandler.delete req ctx pathValue) := by
  refine withFlag_allows fun client flag => ?_
  intro done
  cases done with
  | error err => exact not_denied_error (by decide)
  | ok _ =>
      intro _
      show ¬Denied (writeJSON 204 .empty)
      exact not_denied_ok (by decide)

theorem createFlag_allows (ctx : UserContext)
    (pathValue : String → String) :
    Allows (FlagHandler.create req ctx pathValue) := by
  unfold FlagHandler.create
  split
  · exact not_denied_bad (by decide)
  · split
    · exact not_denied_bad (by decide)
    · refine withClient_allows fun client => ?_
      intro done
      cases done with
      | error err => exact not_denied_error (by decide)
      | ok flag =>
          intro _
          exact not_denied_ok (by decide)

theorem listFlags_allows (ctx : UserContext)
    (pathValue : String → String) :
    Allows (FlagHandler.list req ctx pathValue) :=
  fun _ => Prog.Returns.map fun _ => not_denied_ok (by decide)

theorem listClusters_allows (req : Request) (ctx : UserContext)
    (pathValue : String → String) :
    Allows (ClusterHandler.list req ctx pathValue) :=
  fun _ => not_denied_ok (by decide)

theorem register_allows (ctx : UserContext)
    (pathValue : String → String) :
    Allows (ClusterHandler.register req ctx pathValue) := by
  unfold ClusterHandler.register
  split
  · exact not_denied_bad (by decide)
  · split
    · exact not_denied_bad (by decide)
    · intro done
      cases done with
      | error err => exact not_denied_error (by decide)
      | ok _ =>
          intro _
          exact not_denied_ok (by decide)

theorem remove_allows : Allows (ClusterHandler.remove req ctx pathValue) := by
  intro done
  cases done with
  | error err => exact not_denied_error (by decide)
  | ok _ =>
      intro _
      show ¬Denied (writeJSON 204 .empty)
      exact not_denied_ok (by decide)

theorem listAudit_allows (ctx : UserContext)
    (pathValue : String → String) : Allows (listAudit req ctx pathValue) := by
  intro found
  cases found with
  | error err => exact not_denied_error (by decide)
  | ok events => exact not_denied_ok (by decide)

theorem listUsers_allows (req : Request) (ctx : UserContext)
    (pathValue : String → String) :
    Allows (AuthHandler.listUsers req ctx pathValue) := by
  intro found
  cases found with
  | error err => exact not_denied_error (by decide)
  | ok users => exact not_denied_ok (by decide)

theorem listWorkloads_allows [Apimachinery] :
    Allows (WorkloadHandler.list req ctx pathValue) := by
  refine withClient_allows fun client => Prog.Returns.embed ?_
  refine Prog.Returns.bind fun allowed => ?_
  dsimp only
  split
  · refine Prog.Returns.bind fun workloads => ?_
    exact Prog.Returns.map fun _ => not_denied_ok (by decide)
  · split
    · exact not_denied_ok (by decide)
    · refine Prog.Returns.bind fun found => ?_
      obtain ⟨found, managed⟩ := found
      cases found with
      | error err => exact not_denied_error (by decide)
      | ok workloads =>
          exact Prog.Returns.map fun _ => not_denied_ok (by decide)

/-! Users look after themselves: these three read the context. -/

theorem createUser_allows (hadmin : ctx.role = "admin") :
    Allows (AuthHandler.createUser req ctx pathValue) := by
  unfold AuthHandler.createUser
  rw [if_neg (not_not.mpr hadmin)]
  split
  · exact not_denied_bad (by decide)
  · split
    · exact not_denied_bad (by decide)
    · split
      · exact not_denied_bad (by decide)
      · intro hashed
        cases hashed with
        | error err => exact not_denied_error (by decide)
        | ok hash =>
            intro done
            cases done with
            | error err => exact not_denied_error (by decide)
            | ok _ => exact not_denied_ok (by decide)

theorem deleteUser_allows (hadmin : ctx.role = "admin")
    (hother : ctx.username ≠ pathValue "username") :
    Allows (AuthHandler.deleteUser req ctx pathValue) := by
  unfold AuthHandler.deleteUser
  dsimp only
  rw [if_neg (not_not.mpr hadmin), if_neg hother]
  intro done
  cases done with
  | error err => exact not_denied_error (by decide)
  | ok _ => exact not_denied_ok (by decide)

theorem changePassword_allows {target password text : String} :
    Allows (AuthHandler.changePassword target password
      (.ret (writeJSON 200 (.message text)))) := by
  unfold AuthHandler.changePassword
  split
  · exact not_denied_ok (by decide)
  · intro hashed
    cases hashed with
    | error err => exact not_denied_error (by decide)
    | ok hash =>
        intro done
        cases done with
        | error err => exact not_denied_error (by decide)
        | ok _ => exact not_denied_ok (by decide)

theorem updateUser_allows {data : UpdateUserRequest}
    (hbody : req.body.updateUser = some data)
    (hself : ctx.role = "admin" ∨
      ctx.username = pathValue "username" ∧ data.role = "") :
    Allows (AuthHandler.updateUser req ctx pathValue) := by
  unfold AuthHandler.updateUser
  dsimp only
  rw [hbody]
  dsimp only
  rw [if_neg, if_neg]
  · unfold AuthHandler.changeRole
    split
    · exact changePassword_allows
    · split
      · exact not_denied_bad (by decide)
      · intro done
        cases done with
        | error err => exact not_denied_error (by decide)
        | ok _ => exact changePassword_allows
  · intro h
    rcases hself with hadmin | ⟨_, hrole⟩
    · exact h.1 hadmin
    · exact h.2 hrole
  · intro h
    rcases hself with hadmin | ⟨hname, _⟩
    · exact h.1 hadmin
    · exact h.2 hname

theorem requireRole_allows {allowed : List String} {next : Handler}
    (hrole : ctx.role ∈ allowed) (hnext : Allows (next req ctx pathValue)) :
    Allows (requireRole allowed next req ctx pathValue) := by
  unfold requireRole
  rw [if_pos hrole]
  exact hnext

/-- It refuses at once, and does nothing. -/
def Refuses (p : ServerProg Response) : Prop :=
  ∃ resp, p = .ret resp ∧ Denied resp

theorem requireRole_refuses {allowed : List String} {next : Handler}
    (hrole : ctx.role ∉ allowed) :
    Refuses (requireRole allowed next req ctx pathValue) :=
  ⟨_, if_neg hrole, .inl rfl⟩

end

/-! ## The controls -/

theorem EditUserForm.Reached.role_of_not_admin {user : Option MeResponse}
    {f : EditUserForm} (h : f.Reached user) (hadmin : isAdmin user = false) :
    f.role = f.originalRole := by
  induction h with
  | start role => rfl
  | typePassword f hf password ih => exact ih
  | selectRole f hf role hyes ih =>
      rw [hadmin] at hyes
      cases hyes

/-- Without the input for it, the role stays out of what is sent. -/
theorem handleUpdate_role {f : EditUserForm} {data : UpdateUserRequest}
    (h : handleUpdate f = some data) (hsame : f.role = f.originalRole) :
    data.role = "" := by
  unfold handleUpdate at h
  dsimp only at h
  have hno : ¬(f.role ≠ "" ∧ f.role ≠ f.originalRole) := fun hne => hne.2 hsame
  rw [if_neg hno] at h
  split at h
  · cases h
  · cases h
    rfl

section
variable {user : MeResponse}

@[simp] theorem isAdmin_some : isAdmin (some user) = true ↔
    user.role = "admin" := by simp [isAdmin]

@[simp] theorem canEdit_some : canEdit (some user) = true ↔
    user.role ≠ "viewer" := by simp [canEdit]

@[simp] theorem isSelf_some {row : String} : isSelf (some user) row = true ↔
    user.username = row := by simp [isSelf]

/-- In terms of roles, who a control is for. -/
def Control.Needs (user : MeResponse) : Control → Prop
  | .flagsPage | .clustersPage | .auditPage | .usersPanel => True
  | .workloadsPage | .createFlag | .editFlag | .toggleFlag =>
      user.role ≠ "viewer"
  | .deleteFlag | .registerCluster | .removeCluster | .createUser =>
      user.role = "admin"
  | .editUser row => user.role = "admin" ∨ user.username = row
  | .deleteUser row => user.role = "admin" ∧ user.username ≠ row

/-- These are the ones it is shown to, but for the workloads page and the form
for a flag. -/
theorem needs_iff {c : Control} : c.Needs user ↔
    c.shown (some user) = true ∧
      ¬((c = .workloadsPage ∨ c = .editFlag) ∧ user.role = "viewer") := by
  cases c with
  | editUser row =>
      by_cases hadmin : user.role = "admin"
      · simp [Control.shown, Control.Needs, hadmin]
      · simp [Control.shown, Control.Needs, hadmin, ← Bool.not_eq_true]
  | _ => simp [Control.shown, Control.Needs, ← Bool.not_eq_true]

theorem mem_editorUp (hrole : user.role ∈ roles) :
    user.role ∈ editorUp ↔ user.role ≠ "viewer" := by
  simp only [roles, editorUp, List.mem_cons, List.not_mem_nil, or_false]
    at hrole ⊢
  constructor
  · intro h
    rcases h with h | h <;> rw [h] <;> decide
  · intro hviewer
    rcases hrole with h | h | h
    · exact .inl h
    · exact .inr h
    · exact absurd h hviewer

theorem mem_adminOnly : user.role ∈ adminOnly ↔ user.role = "admin" :=
  List.mem_singleton

variable [Apimachinery] {req : Request} {c : Control}
variable {pathValue : String → String}

theorem needs_allows (hrole : user.role ∈ roles)
    (hfits : c.Fits user req pathValue) (h : c.Needs user) :
    Allows (c.handler req ⟨user.username, user.role⟩ pathValue) := by
  have heditor : user.role ≠ "viewer" → user.role ∈ editorUp :=
    (mem_editorUp hrole).mpr
  have hadmin : user.role = "admin" → user.role ∈ adminOnly :=
    mem_adminOnly.mpr
  cases c with
  | flagsPage => exact listFlags_allows ⟨user.username, user.role⟩ pathValue
  | clustersPage =>
      exact listClusters_allows req ⟨user.username, user.role⟩ pathValue
  | auditPage => exact listAudit_allows ⟨user.username, user.role⟩ pathValue
  | usersPanel =>
      exact listUsers_allows req ⟨user.username, user.role⟩ pathValue
  | workloadsPage => exact requireRole_allows (heditor h) listWorkloads_allows
  | createFlag => exact requireRole_allows (heditor h) (createFlag_allows _ _)
  | editFlag => exact requireRole_allows (heditor h) updateFlag_allows
  | toggleFlag => exact requireRole_allows (heditor h) toggleFlag_allows
  | deleteFlag => exact requireRole_allows (hadmin h) deleteFlag_allows
  | registerCluster =>
      exact requireRole_allows (hadmin h) (register_allows _ _)
  | removeCluster => exact requireRole_allows (hadmin h) remove_allows
  | createUser => exact requireRole_allows (hadmin h) (createUser_allows h)
  | editUser row =>
      obtain ⟨hrow, f, data, hreached, hdata, hbody⟩ := hfits
      refine updateUser_allows hbody ?_
      by_cases hyes : user.role = "admin"
      · exact .inl hyes
      · have hno : isAdmin (some user) = false := by
          rw [Bool.eq_false_iff, ne_eq, isAdmin_some]
          exact hyes
        refine .inr ⟨(h.resolve_left hyes).trans hrow.symm, ?_⟩
        exact handleUpdate_role hdata (hreached.role_of_not_admin hno)
  | deleteUser row =>
      obtain ⟨hyes, hother⟩ := h
      have hrow : pathValue "username" = row := hfits
      rw [← hrow] at hother
      exact requireRole_allows (hadmin hyes) (deleteUser_allows hyes hother)

theorem refuses_of_not_needs (hrole : user.role ∈ roles)
    (hfits : c.Fits user req pathValue) (h : ¬c.Needs user) :
    Refuses (c.handler req ⟨user.username, user.role⟩ pathValue) := by
  cases c with
  | flagsPage | clustersPage | auditPage | usersPanel =>
      exact absurd trivial h
  | workloadsPage | createFlag | editFlag | toggleFlag =>
      exact requireRole_refuses fun hmem => h ((mem_editorUp hrole).mp hmem)
  | deleteFlag | registerCluster | removeCluster | createUser =>
      exact requireRole_refuses fun hmem => h (mem_adminOnly.mp hmem)
  | editUser row =>
      obtain ⟨hrow, f, data, _, _, hbody⟩ := hfits
      rw [← hrow] at h
      obtain ⟨hno, hother⟩ := not_or.mp h
      refine ⟨writeError 403 "you can only update your own account", ?_,
        .inl rfl⟩
      unfold Control.handler AuthHandler.updateUser
      dsimp only
      rw [hbody]
      exact if_pos ⟨hno, hother⟩
  | deleteUser row =>
      by_cases hyes : user.role = "admin"
      · have hrow : pathValue "username" = row := hfits
        have hself : user.username = pathValue "username" := by
          rw [hrow]
          by_contra hother
          exact h ⟨hyes, hother⟩
        refine ⟨writeError 400 "cannot delete yourself", ?_, .inr ⟨rfl, rfl⟩⟩
        unfold Control.handler requireRole AuthHandler.deleteUser
        dsimp only
        rw [if_pos (mem_adminOnly.mpr hyes), if_neg (not_not.mpr hyes),
          if_pos hself]
      · exact requireRole_refuses fun hmem => hyes (mem_adminOnly.mp hmem)

end

/-! ## A request on its way through the server -/

section
variable [Bcrypt] [ClientGo] [Apimachinery] {origins : String} {req : Request}
variable {s s' : ServerState} {tr : List ServerEvent} {resp : Response}

/-- A handler of a route that writes has given the answer, unless it is a
refusal. -/
theorem serve_writes {route : Route Handler} (hmem : route ∈ routes)
    (hwrites : route.method ∈ ["POST", "PUT", "DELETE"])
    (hg : Goes req route.method route.pattern)
    (h : Completes ServerStep (serve origins req) s tr resp s')
    (hstatus : resp.status ∈ [200, 201, 500]) :
    ∃ ctx values tr' resp', resp'.status = resp.status ∧
      Completes ServerStep (route.handler req ctx values) s tr' resp' s' := by
  have hmethod : req.method ≠ "OPTIONS" := by
    rw [hg.1]
    intro heq
    rw [heq] at hwrites
    exact absurd hwrites (by decide)
  obtain ⟨resp', tr', hsame, _, hcase⟩ := serve_mux hmethod h
  rw [← hsame] at hstatus
  have hrouted : ∀ {ctx}, Completes ServerStep (mux req ctx) s tr' resp' s' →
      ∃ ctx values tr' resp', resp'.status = resp.status ∧
        Completes ServerStep (route.handler req ctx values) s tr' resp' s' := by
    intro ctx h
    rcases mux_route hmem hwrites hg h with ⟨_, hrefused⟩ | ⟨values, _, h⟩
    · exact absurd hstatus hrefused.1
    · exact ⟨ctx, pathValue values, tr', resp', hsame, h⟩
  rcases hcase with ⟨_, h⟩ | ⟨_, rfl, _⟩ | ⟨username, role, _, h⟩
  · exact hrouted h
  · exact absurd hstatus (by decide)
  · exact hrouted h

end

/-! ## Three roles -/

/-- Users and sessions have no other role. -/
structure Roled (a : Accounts) : Prop where
  users : ∀ name user, a.users.lookup name = some user → user.role ∈ roles
  sessions : ∀ t sess, a.sessions.lookup t = some sess → sess.role ∈ roles

/-- An event that gives no other role. -/
def GivesRole : AccountEvent → Prop
  | .create _ _ role => role ∈ roles
  | .update _ role _ => role = "" ∨ role ∈ roles
  | .login _ _ _ | .logout _ | .delete _ | .tick _ | .other => True

theorem Roled.setUser {a : Accounts} {name : String} {user : User}
    (h : Roled a) (hrole : user.role ∈ roles) :
    Roled (a.setUser name user) where
  users := by
    intro other found hfound
    rw [Accounts.setUser, GoMap.lookup_insert] at hfound
    split at hfound
    · cases hfound
      exact hrole
    · exact h.users other found hfound
  sessions := h.sessions

theorem Roled.step [Bcrypt] {a a' : Accounts} {e : AccountEvent} (h : Roled a)
    (hstep : AccountStep a e a') (he : GivesRole e) : Roled a' := by
  cases e with
  | login token username password =>
      obtain ⟨user, huser, _, rfl⟩ := hstep
      refine ⟨h.users, ?_⟩
      intro t sess hsess
      rw [Accounts.setSession, GoMap.lookup_insert] at hsess
      split at hsess
      · cases hsess
        exact h.users username user huser
      · exact h.sessions t sess hsess
  | logout token =>
      obtain rfl := hstep
      refine ⟨h.users, ?_⟩
      intro t sess hsess
      rw [Accounts.eraseSession, GoMap.lookup_erase] at hsess
      split at hsess
      · cases hsess
      · exact h.sessions t sess hsess
  | create username password role =>
      obtain ⟨_, user, _, rfl, rfl⟩ := hstep
      exact h.setUser he
  | update username role password =>
      obtain ⟨user, user', huser, hrole, _, rfl⟩ := hstep
      refine h.setUser ?_
      rw [hrole]
      split
      · exact h.users username user huser
      · next hne => exact he.resolve_left hne
  | delete username =>
      obtain ⟨_, rfl⟩ := hstep
      refine ⟨?_, h.sessions⟩
      intro name user huser
      rw [Accounts.eraseUser, GoMap.lookup_erase] at huser
      split at huser
      · cases huser
      · exact h.users name user huser
  | tick now =>
      obtain rfl := hstep
      exact ⟨h.users, h.sessions⟩
  | other =>
      obtain rfl := hstep
      exact h

section
variable {req : Request} {ctx : UserContext} {values : String → String}

/-- A user that is created has a role that was checked. -/
theorem createUser_checks {body : CreateUserRequest}
    (hbody : req.body.createUser = some body) :
    (requireRole adminOnly AuthHandler.createUser req ctx values).Returns
      fun resp => resp.status = 201 → body.role ∈ roles := by
  unfold requireRole AuthHandler.createUser
  split
  · split
    · exact fun h => absurd h (by decide)
    · rw [hbody]
      dsimp only
      split
      · exact fun h => absurd h (by decide)
      · split
        · exact fun h => absurd h (by decide)
        · next hrole =>
            refine Prog.Returns.of_forall fun _ _ => ?_
            exact not_not.mp hrole
  · exact fun h => absurd h (by decide)

/-- So has a role that is changed. -/
theorem updateUser_checks {body : UpdateUserRequest}
    (hbody : req.body.updateUser = some body) :
    (AuthHandler.updateUser req ctx values).Returns
      fun resp => resp.status ∈ [200, 500] →
        body.role = "" ∨ body.role ∈ roles := by
  unfold AuthHandler.updateUser
  dsimp only
  rw [hbody]
  dsimp only
  split
  · exact fun h => absurd h (by decide)
  · split
    · exact fun h => absurd h (by decide)
    · unfold AuthHandler.changeRole
      split
      · next hempty => exact Prog.Returns.of_forall fun _ _ => .inl hempty
      · split
        · exact fun h => absurd h (by decide)
        · next hrole =>
            exact Prog.Returns.of_forall fun _ _ => .inr (not_not.mp hrole)

end

section
variable [Bcrypt] [ClientGo] [Apimachinery] {origins : String} {req : Request}
variable {s s' : ServerState} {tr : List ServerEvent} {resp : Response}

theorem createOf_givesRole (hg : Goes req "POST" usersPath)
    (h : Completes ServerStep (serve origins req) s tr resp s') :
    GivesRole (createOf req resp) := by
  unfold createOf
  split
  · exact trivial
  · next body hbody =>
      split
      · next hstatus =>
          have hmem : ⟨"POST", usersPath,
              requireRole adminOnly AuthHandler.createUser⟩ ∈
                (routes : List (Route Handler)) := by
            simp [routes, usersPath]
          obtain ⟨ctx, values, tr', resp', hsame, h⟩ :=
            serve_writes hmem (.head _) hg h (by rw [hstatus]; decide)
          exact h.1.returns (createUser_checks hbody) (hsame.trans hstatus)
      · exact trivial

theorem updateOf_givesRole (hg : Goes req "PUT" userPath)
    (h : Completes ServerStep (serve origins req) s tr resp s') :
    GivesRole (updateOf req resp) := by
  have hupdated : ∀ {username role password}, role = "" ∨ role ∈ roles →
      GivesRole (updated username role password) := by
    intro username role password hrole
    unfold updated
    split
    · exact trivial
    · exact hrole
  have hmem : ⟨"PUT", userPath, AuthHandler.updateUser⟩ ∈
      (routes : List (Route Handler)) := by simp [routes, userPath]
  have hchecks : ∀ body, req.body.updateUser = some body →
      resp.status ∈ [200, 500] → body.role = "" ∨ body.role ∈ roles := by
    intro body hbody hstatus
    have hwrote : resp.status ∈ [200, 201, 500] := by
      simp only [List.mem_cons, List.not_mem_nil, or_false] at hstatus ⊢
      omega
    obtain ⟨ctx, values, tr', resp', hsame, h⟩ :=
      serve_writes hmem (.tail _ (.head _)) hg h hwrote
    exact h.1.returns (updateUser_checks hbody) (by rw [hsame]; exact hstatus)
  unfold updateOf
  split
  · exact trivial
  · next body hbody =>
      split
      · next hok =>
          exact hupdated (hchecks body hbody (by rw [hok]; decide))
      · split
        · next hfailed =>
            exact hupdated (hchecks body hbody (by rw [hfailed]; decide))
        · exact trivial

theorem occurs_givesRole {o : Occurrence} (h : Occurs origins s o s') :
    GivesRole o.account := by
  cases o with
  | move w =>
      cases w with
      | kube client w => exact trivial
      | tick now => exact trivial
  | served req resp =>
      obtain ⟨tr, h⟩ := h
      show GivesRole (accountOf req resp)
      unfold accountOf
      split
      · unfold loginOf
        split <;> exact trivial
      · split
        · unfold logoutOf
          split <;> exact trivial
        · split
          · next hg => exact createOf_givesRole hg h
          · split
            · next hg => exact updateOf_givesRole hg h
            · split
              · unfold deleteOf
                split <;> exact trivial
              · exact trivial

variable {ι : Type} [DecidableEq ι]

/-- From the start of the server on, there are three roles. -/
theorem roled_run {flag env adminPassword : String} {s₀ s₁ : ServerState}
    {acts : List (ConsoleAct ι)} {c c' : Console ι}
    (hnew : s₀.store = .new)
    (hboot : Completes ServerStep (bootstrap flag env) s₀ tr
      (.ok adminPassword) s₁)
    (hrun : Run (ConsoleStep origins) (s₁, c) acts (s, c')) :
    Roled s.accounts := by
  have hstart : Roled s₁.accounts := by
    obtain ⟨admin, _, hrole, hs₁⟩ := bootstrap_accounts hboot
    have hempty : s₀.accounts.users = ∅ ∧ s₀.accounts.sessions = ∅ := by
      unfold ServerState.accounts
      rw [hnew]
      exact ⟨rfl, rfl⟩
    rw [hs₁]
    refine Roled.setUser ⟨?_, ?_⟩ ?_
    · intro name user huser
      rw [hempty.1, Finmap.lookup_empty] at huser
      cases huser
    · intro t sess hsess
      rw [hempty.2, Finmap.lookup_empty] at hsess
      cases hsess
    · rw [hrole, hempty.1, Finmap.lookup_empty]
      decide
  refine Run.invariant (I := fun st => Roled st.1.accounts) ?_ hrun hstart
  intro st a st' hst hstep
  rcases server_step hstep with hsame | ⟨o, _, h⟩
  · rw [hsame]
    exact hst
  · exact hst.step (occurs_account h) (occurs_givesRole h)

end

/-! ## The two tables -/

section
variable [Bcrypt] [Apimachinery] {c : Control} {user : MeResponse}
variable {req : Request}

omit [Bcrypt] [Apimachinery] in
theorem Control.method_ne (c : Control) : c.method ≠ "OPTIONS" := by
  cases c <;> simp [Control.method]

omit [Bcrypt] [Apimachinery] in
theorem Control.base_mem (c : Control) :
    c.base ∈ ["/flags", "/clusters", "/audit", "/users"] := by
  cases c <;> simp [Control.base]

omit [Bcrypt] [Apimachinery] in
/-- How a path of the console begins stays as it is when it is decoded, and no
path that needs no token begins so. -/
theorem base_apart : ∀ base ∈ ["/flags", "/clusters", "/audit", "/users"],
    '%' ∉ (apiBase ++ base).toList ∧
      ∀ text ∈ ["/healthz", "/api/v1/auth/login"],
        ¬(apiBase ++ base).toList <+: text.toList := by decide

omit [Bcrypt] [Apimachinery] in
theorem not_skipsAuth {base : String} {rest : List Char}
    (hmem : base ∈ ["/flags", "/clusters", "/audit", "/users"])
    (hpath : req.url.escapedPath.toList = (apiBase ++ base).toList ++ rest)
    (hmethod : req.method ≠ "OPTIONS") : skipsAuth req = false := by
  obtain ⟨hplain, hapart⟩ := base_apart base hmem
  have hdecoded := req.url.decodes
  rw [hpath, unescape_append hplain] at hdecoded
  obtain ⟨rest', _, hdecoded⟩ := Option.map_eq_some_iff.mp hdecoded
  have hother : ∀ text ∈ ["/healthz", "/api/v1/auth/login"],
      req.url.path ≠ text := by
    intro text htext heq
    refine hapart text htext ?_
    rw [← heq, ← hdecoded]
    exact List.prefix_append _ _
  unfold skipsAuth
  rw [decide_eq_false_iff_not]
  intro hskips
  rcases hskips with hskips | ⟨hskips, _⟩ | ⟨hskips, _⟩
  · exact hmethod hskips
  · exact hother _ (.head _) hskips
  · exact hother _ (.tail _ (.head _)) hskips

variable [ClientGo] {origins : String} {s s' : ServerState}
variable {tr : List ServerEvent} {resp : Response}

/-- Of a request that is taken for this user's. -/
theorem denied_iff (hrole : user.role ∈ roles) (hsends : c.Sends user req)
    (hactor : actor s req = some (user.username, user.role))
    (h : Completes ServerStep (serve origins req) s tr resp s') :
    (Denied resp ↔ ¬c.Needs user) ∧ (Denied resp → s' = s) := by
  have hmethod : req.method ≠ "OPTIONS" := by
    rw [hsends.method]
    exact c.method_ne
  obtain ⟨resp', tr', hstatus, hbody, hcase⟩ := serve_mux hmethod h
  have hdenied : Denied resp ↔ Denied resp' := by
    unfold Denied
    rw [hstatus, hbody]
  rw [hdenied]
  rcases hcase with ⟨hskips, _⟩ | ⟨hnone, _⟩ | ⟨username, role, hsome, h⟩
  · obtain ⟨rest, hpath⟩ := hsends.path
    rw [not_skipsAuth c.base_mem hpath hmethod] at hskips
    cases hskips
  · rw [hactor] at hnone
    cases hnone
  · rw [hactor] at hsome
    cases hsome
    obtain ⟨values, hrouted, hfits⟩ := hsends.routed
    unfold mux at h
    rw [hrouted] at h
    by_cases hneeds : c.Needs user
    · have hallowed : ¬Denied resp' :=
        h.1.returns (needs_allows hrole hfits hneeds)
      exact ⟨⟨fun hd => absurd hd hallowed, fun hn => absurd hneeds hn⟩,
        fun hd => absurd hd hallowed⟩
    · obtain ⟨refusal, hrefuses, hd⟩ := refuses_of_not_needs hrole hfits hneeds
      dsimp only at h
      rw [hrefuses] at h
      obtain ⟨_, rfl, rfl⟩ := completes_ret.mp h
      exact ⟨⟨fun _ => hneeds, fun _ => hd⟩, fun _ => rfl⟩

end

section
variable {ι : Type} [DecidableEq ι] [Bcrypt] [ClientGo] [Apimachinery]
variable {origins : String} {st st' : ServerState × Console ι}
variable {acts later : List (ConsoleAct ι)} {x : Fetch ι}

/-- In every run, a request that a tab makes for its user, with the token it has
in common with the storage, is refused if and only if the tab does not show the
control for it, or the request is a viewer's, for the workloads or to change a
flag; and what is refused changes nothing. -/
theorem refused_iff_hidden {flag env adminPassword : String}
    {s₀ s₁ s' : ServerState} {tr₀ tr : List ServerEvent} {tab : Kept}
    {user : MeResponse} {c : Control} {resp : Response}
    (hnew : s₀.store = .new)
    (hboot : Completes ServerStep (bootstrap flag env) s₀ tr₀
      (.ok adminPassword) s₁)
    (hrun : Run (ConsoleStep origins) (s₁, {}) acts st)
    (hx : st.2.MayStart x) (hask : x.purpose = .ask)
    (htab : st.2.tabs x.tab = some tab)
    (hsame : tab.token = st.2.storage.token) (huser : tab.user = some user)
    (hsends : c.Sends user x.request)
    (hlater : Run (ConsoleStep origins) st later st')
    (hfresh : ((acts ++ later).filterMap ConsoleAct.returned).Nodup)
    (hlive : actor st'.1 x.request ≠ none)
    (hserved : Completes ServerStep (serve origins x.request) st'.1 tr resp
      s') :
    (Denied resp ↔ c.shown (some user) = false ∨
      (c = .workloadsPage ∨ c = .editFlag) ∧ user.role = "viewer") ∧
    (Denied resp → s' = st'.1) := by
  have hbefore := hfresh
  rw [List.filterMap_append] at hbefore
  have hknown := known_run hrun (List.nodup_append.mp hbefore).1
  obtain ⟨actingAs, hactor⟩ := Option.ne_none_iff_exists'.mp hlive
  obtain ⟨token, ht, hholder⟩ := hknown.holder hx hask hlater hfresh hactor
  have hacting : actingAs = (user.username, user.role) := by
    rw [ht] at hsame
    obtain ⟨u, rfl⟩ := (hknown.sound.tabs _ _ htab).of_token hsame
    cases huser
    have heq := hholder user (.tab _ htab)
    rw [heq]
  rw [hacting] at hactor
  have hrole : user.role ∈ roles := by
    have hroled : Roled st'.1.accounts :=
      roled_run hnew hboot (run_append.mpr ⟨st, hrun, hlater⟩)
    have hget : st'.1.store.getSession st'.1.now
        (extractBearerToken x.request) = some (user.username, user.role) := by
      unfold actor at hactor
      split at hactor
      · cases hactor
      · exact hactor
    obtain ⟨expiresAt, hsess⟩ := getSession_some hget
    exact hroled.sessions _ _ hsess
  obtain ⟨hdenied, hkept⟩ := denied_iff hrole hsends hactor hserved
  refine ⟨?_, hkept⟩
  rw [hdenied, needs_iff, not_and_or, not_not, Bool.not_eq_true]

end

/-! The administrator looks at the audit log, as everybody may. -/

theorem askAudit_sends :
    letI := labelSelectors
    letI := plainBcrypt
    Control.auditPage.Sends ⟨"admin", "admin"⟩
      (askAudit adminToken).request := by
  let := labelSelectors
  let := plainBcrypt
  have hmem : ⟨"GET", api [.lit "audit"], listAudit⟩ ∈
      (routes : List (Route Handler)) := by simp [routes]
  have hplain : ∀ seg ∈ ["api", "v1", "audit"], Plain seg ∧ seg ≠ "" := by
    decide
  exact
    { method := rfl
      path := ⟨[], rfl⟩
      routed := ⟨[], serveMux_plain (by decide) hplain (by decide) hmem rfl,
        trivial⟩ }

theorem refused_iff_hidden_sample :
    letI := labelSelectors
    letI := plainBcrypt
    letI := anyHost
    ∃ (s s' : ServerState) (tr : List ServerEvent) (resp : Response),
      Completes ServerStep (serve "*" (askAudit adminToken).request) s tr resp
        s' ∧
      ¬Denied resp := by
  let := labelSelectors
  let := plainBcrypt
  let := anyHost
  obtain ⟨s₁, st, tr, acts, hboot, hrun, hfresh, hstorage, htab, hactor⟩ :=
    admin_signs_in
  have hserved := completes_of_exec (serveTrace_eq
    (askAudit adminToken).request st.1)
  have hlive : actor st.1 (askAudit adminToken).request ≠ none := by
    rw [hactor]
    exact Option.some_ne_none _
  have hsame : adminKept.token = st.2.storage.token := by rw [hstorage]
  rw [← List.append_nil acts] at hfresh
  have hrefused := (refused_iff_hidden rfl hboot hrun
    (askAudit_may hstorage htab) rfl htab hsame rfl askAudit_sends .nil hfresh
    hlive hserved).1
  refine ⟨_, _, _, _, hserved, ?_⟩
  rw [hrefused]
  decide

end Vexil.Web
