import Vexil.Server.Accounts

/-!
# Updates of users that go half way

`UpdateUser` changes the role and then the password, and each part is checked
just before it is stored. The role has to be one of three texts and the user has
to be there, the password has to have a hash. So a request that is refused has
changed nothing up to the point where the role is stored. After that there is
one thing that can still go wrong: the user is there, so the store takes any
hash, but `bcrypt` has none for more than 72 bytes.
-/

namespace Vexil.Server

open Vexil.Lib

section
variable [Bcrypt] [ClientGo]

/-- An update that is not answered with 200 leaves every user as it was. -/
def UpdatesWhole (r : Request) (ctx : UserContext) (pathValue : String → String)
    (s : ServerState) : Prop :=
  ∀ tr resp s',
    Completes ServerStep (AuthHandler.updateUser r ctx pathValue) s tr resp s' →
      resp.status ≠ 200 → s'.store.users = s.store.users

omit [Bcrypt] [ClientGo] in
/-- An administrator asks for another role of a user and for a password that is
too long. -/
def NewRoleLongPassword (r : Request) (ctx : UserContext)
    (pathValue : String → String) (s : ServerState) : Prop :=
  ∃ body user, r.body.updateUser = some body ∧ ctx.role = "admin" ∧
    body.role ∈ roles ∧ 72 < body.password.utf8ByteSize ∧
    s.store.users.lookup (pathValue "username") = some user ∧
    user.role ≠ body.role

variable {r : Request} {ctx : UserContext} {values : String → String}
variable {s s' : ServerState} {tr : List ServerEvent} {resp : Response}

/-! ## What is left after a refusal -/

/-- A change of password that is refused: nothing is stored, and there is no
such user or no hash. -/
theorem changePassword_refused {target password text : String}
    (h : Completes ServerStep (AuthHandler.changePassword target password
      (.ret (writeJSON 200 (.message text)))) s tr resp s')
    (hstatus : resp.status ≠ 200) :
    s'.store.users = s.store.users ∧
      (s.store.users.lookup target = none ∨ ∃ salt err,
        Bcrypt.generateFromPassword salt password = .error err) := by
  have hsame : s'.accounts = s.accounts := by
    rcases changePassword_accounts h with ⟨hok, _, _⟩ | ⟨hok, _, _⟩ |
      ⟨_, hm⟩ | ⟨_, _, hm⟩
    · exact absurd hok hstatus
    · exact absurd hok hstatus
    · exact hm
    · exact hm
  refine ⟨congrArg Accounts.users hsame, ?_⟩
  unfold AuthHandler.changePassword at h
  split at h
  · obtain ⟨_, rfl, rfl⟩ := completes_ret.mp h
    exact absurd rfl hstatus
  · obtain ⟨hashed, _, m, _, hhash, h⟩ := completes_call.mp h
    obtain ⟨⟨salt, hsalt⟩, rfl⟩ := hhash
    cases hashed with
    | error err => exact .inr ⟨salt, err, hsalt.symm⟩
    | ok hash =>
        obtain ⟨done, _, m, _, hupdate, h⟩ := completes_call.mp h
        rcases updatePassword_serverStep hupdate with
          ⟨_, hnone, _⟩ | ⟨rfl, _⟩
        · exact .inl hnone
        · obtain ⟨_, rfl, rfl⟩ := completes_ret.mp h
          exact absurd rfl hstatus

omit [Bcrypt] [ClientGo] in
/-- A role that is stored again. -/
theorem insert_same_role {users : GoMap User} {name role : String} {user : User}
    (hsome : users.lookup name = some user) (hrole : user.role = role) :
    users.insert name { user with role := role } = users := by
  subst hrole
  refine Finmap.ext_lookup fun k => ?_
  rw [GoMap.lookup_insert]
  split
  · next hk => rw [hk, hsome]
  · rfl

/-- An update that is refused changes users only if the role was another one and
the password has no hash. -/
theorem changeRole_refused {target role password text : String}
    (h : Completes ServerStep (AuthHandler.changeRole target role
      (AuthHandler.changePassword target password
        (.ret (writeJSON 200 (.message text))))) s tr resp s')
    (hstatus : resp.status ≠ 200) :
    s'.store.users = s.store.users ∨
      role ≠ "" ∧ role ∈ roles ∧
        (∃ salt err, Bcrypt.generateFromPassword salt password = .error err) ∧
        ∃ user, s.store.users.lookup target = some user ∧ user.role ≠ role := by
  unfold AuthHandler.changeRole at h
  split at h
  · exact .inl (changePassword_refused h hstatus).1
  · next hrole =>
      split at h
      · obtain ⟨_, rfl, rfl⟩ := completes_ret.mp h
        exact .inl rfl
      · next hvalid =>
          obtain ⟨done, _, m, _, hupdate, h⟩ := completes_call.mp h
          rcases updateUserRole_serverStep hupdate with
            ⟨⟨err, rfl⟩, hm⟩ | ⟨rfl, user, hsome, hm⟩
          · obtain ⟨_, rfl, rfl⟩ := completes_ret.mp h
            exact .inl (congrArg Accounts.users hm)
          · have husers : m.store.users =
                s.store.users.insert target { user with role := role } :=
              congrArg Accounts.users hm
            obtain ⟨hkept, hwhy⟩ := changePassword_refused h hstatus
            by_cases hsame : user.role = role
            · left
              rw [hkept, husers]
              exact insert_same_role hsome hsame
            · refine .inr ⟨hrole, not_not.mp hvalid, ?_, user, hsome, hsame⟩
              refine hwhy.resolve_left ?_
              rw [husers, Finmap.lookup_insert]
              exact Option.some_ne_none _

/-! ## The run that goes half way -/

theorem updateUser_half {body : UpdateUserRequest} {user : User}
    (hlong : ∃ err, Bcrypt.generateFromPassword "" body.password = .error err)
    (hbody : r.body.updateUser = some body) (hadmin : ctx.role = "admin")
    (hvalid : body.role ∈ roles) (hne : body.password ≠ "")
    (hsome : s.store.users.lookup (values "username") = some user) :
    ∃ tr resp s', Completes ServerStep (AuthHandler.updateUser r ctx values) s
        tr resp s' ∧ resp.status = 500 ∧
      s'.store.users = s.store.users.insert (values "username")
        { user with role := body.role } := by
  obtain ⟨err, herr⟩ := hlong
  have hrole : body.role ≠ "" := by
    intro hempty
    rw [hempty] at hvalid
    exact absurd hvalid (by decide)
  have hserve : (s.store.updateUserRole (values "username") body.role).1 =
        .ok () ∧
      (s.store.updateUserRole (values "username") body.role).2.users =
        s.store.users.insert (values "username")
          { user with role := body.role } := by
    unfold MemoryStore.updateUserRole
    split
    · next hnone =>
        rw [hsome] at hnone
        cases hnone
    · next user' hsome' =>
        rw [hsome] at hsome'
        cases hsome'
        exact ⟨rfl, rfl⟩
  refine ⟨[⟨.store (.updateUserRole (values "username") body.role), .ok ()⟩,
      ⟨.generateFromPassword body.password, .error err⟩],
    writeError 500 "failed to hash password", { s with
      store := (s.store.updateUserRole (values "username") body.role).2 }, ?_,
    rfl, hserve.2⟩
  unfold AuthHandler.updateUser
  simp only [hbody]
  rw [if_neg fun hno => hno.1 hadmin, if_neg fun hno => hno.1 hadmin,
    AuthHandler.changeRole, if_neg hrole, if_neg (not_not.mpr hvalid)]
  refine completes_call.mpr ⟨.ok (), _, _, rfl, ⟨"", hserve.1, rfl⟩, ?_⟩
  dsimp only
  rw [AuthHandler.changePassword, if_neg hne]
  refine completes_call.mpr ⟨.error err, _, _, rfl, ⟨⟨"", herr.symm⟩, rfl⟩, ?_⟩
  exact completes_ret.mpr ⟨rfl, rfl, rfl⟩

/-- `UpdateUser` is all or nothing except for an administrator's request with a
new role and a password that is too long. -/
theorem update_whole_iff
    (hbcrypt : ∀ salt password,
      (∃ err, Bcrypt.generateFromPassword salt password = .error err) ↔
        72 < password.utf8ByteSize)
    (r : Request) (ctx : UserContext) (pathValue : String → String)
    (s : ServerState) :
    UpdatesWhole r ctx pathValue s ↔
      ¬ NewRoleLongPassword r ctx pathValue s := by
  constructor
  · rintro hwhole ⟨body, user, hbody, hadmin, hvalid, hlong, hsome, hother⟩
    have hne : body.password ≠ "" := by
      intro hempty
      rw [hempty] at hlong
      exact absurd hlong (by decide)
    obtain ⟨tr, resp, s', hrun, hstatus, husers⟩ := updateUser_half
      ((hbcrypt "" _).mpr hlong) hbody hadmin hvalid hne hsome
    have hkept := hwhole tr resp s' hrun (by rw [hstatus]; decide)
    have hrole : some { user with role := body.role } = some user := by
      rw [← hsome, ← hkept, husers, Finmap.lookup_insert]
    exact hother (congrArg User.role (Option.some.inj hrole)).symm
  · intro hno tr resp s' hrun hstatus
    unfold AuthHandler.updateUser at hrun
    dsimp only at hrun
    split at hrun
    · obtain ⟨_, rfl, rfl⟩ := completes_ret.mp hrun
      rfl
    · next body hbody =>
        split at hrun
        · obtain ⟨_, rfl, rfl⟩ := completes_ret.mp hrun
          rfl
        · split at hrun
          · obtain ⟨_, rfl, rfl⟩ := completes_ret.mp hrun
            rfl
          · next hmay =>
              rcases changeRole_refused hrun hstatus with hkept |
                ⟨hrole, hvalid, ⟨salt, hhash⟩, user, hsome, hother⟩
              · exact hkept
              · have hadmin : ctx.role = "admin" := by
                  by_contra hne
                  exact hmay ⟨hne, hrole⟩
                exact absurd ⟨body, user, hbody, hadmin, hvalid,
                  (hbcrypt salt _).mp hhash, hsome, hother⟩ hno

end

/-! Two requests of an administrator: a new role and a password, of seven
characters and of 73. -/

theorem plainBcrypt_refuses (salt password : String) :
    (∃ err, plainBcrypt.generateFromPassword salt password = .error err) ↔
      72 < password.utf8ByteSize := by
  have hdef : plainBcrypt.generateFromPassword salt password =
      if password.utf8ByteSize > 72 then
        .error "bcrypt: password length exceeds 72 bytes"
      else .ok (String.ofList
        ((salt.toList ++ List.replicate 22 '.').take 22 ++
          password.toList)) := rfl
  rw [hdef]
  split
  · next hlong => exact iff_of_true ⟨_, rfl⟩ hlong
  · next hshort =>
      refine iff_of_false ?_ hshort
      rintro ⟨err, herr⟩
      cases herr

def robin : User where
  username := "robin"
  passwordHash := "hash"
  role := "viewer"

def robinState : ServerState where
  store := MemoryStore.new.setUser "robin" robin rfl
  clusters := ⟨∅⟩
  kube _ := {}
  now := 0

def promoteRobin (password : String) : Request where
  method := "PUT"
  url := ⟨"/api/v1/users/robin", "/api/v1/users/robin", by decide +kernel⟩
  body := { updateUser := some ⟨password, "editor"⟩ }

theorem update_whole_iff_sample :
    letI := plainBcrypt
    letI := anyHost
    UpdatesWhole (promoteRobin "letmein") ⟨"admin", "admin"⟩ (fun _ => "robin")
      robinState := by
  let := plainBcrypt
  let := anyHost
  refine (update_whole_iff plainBcrypt_refuses _ _ _ _).mpr ?_
  rintro ⟨body, user, hbody, _, _, hlong, _, _⟩
  cases hbody
  exact absurd hlong (by decide)

/-- The answer is 500 and the role is another one. -/
theorem refused_update_promotes :
    letI := plainBcrypt
    letI := anyHost
    let password := String.ofList (List.replicate 73 'x')
    ∃ tr resp s', Completes ServerStep
        (AuthHandler.updateUser (promoteRobin password) ⟨"admin", "admin"⟩
          (fun _ => "robin")) robinState tr resp s' ∧
      resp.status = 500 ∧
      robinState.store.users.lookup "robin" = some robin ∧
      s'.store.users.lookup "robin" = some { robin with role := "editor" } ∧
      ¬ UpdatesWhole (promoteRobin password) ⟨"admin", "admin"⟩
        (fun _ => "robin") robinState := by
  let := plainBcrypt
  let := anyHost
  intro password
  have hlong : 72 < password.utf8ByteSize := by decide +kernel
  -- of the password only its length matters from here on
  clear_value password
  have hsome : robinState.store.users.lookup "robin" = some robin := by decide
  have hne : password ≠ "" := by
    rintro rfl
    exact absurd hlong (by decide)
  have hbody : (promoteRobin password).body.updateUser =
      some ⟨password, "editor"⟩ := rfl
  have hadmin : (⟨"admin", "admin"⟩ : UserContext).role = "admin" := rfl
  have hvalid : "editor" ∈ roles := by decide
  obtain ⟨tr, resp, s', hrun, hstatus, husers⟩ :=
    @updateUser_half _ _ _ _ (fun _ => "robin") robinState _ _
      ((plainBcrypt_refuses "" _).mpr hlong) hbody hadmin hvalid hne hsome
  have hnow : s'.store.users.lookup "robin" =
      some { robin with role := "editor" } := by
    rw [husers]
    exact Finmap.lookup_insert _
  refine ⟨tr, resp, s', hrun, hstatus, hsome, hnow, fun hwhole => ?_⟩
  have hkept := hwhole tr resp s' hrun (by rw [hstatus]; decide)
  rw [hkept, hsome] at hnow
  exact absurd hnow (by decide)

end Vexil.Server
