import Vexil.Proofs.SessionLife

/-!
# Whether there is an administrator

`DeleteUser` refuses to delete the caller, and that is all the server does to
keep an administrator. An administrator can give the own account another role;
and an administrator whose session is older than a change of role can delete the
ones that are left. A restart does not help: the user `admin` exists, so it gets
a new password and keeps its role.

For one request that changes users the condition is that it leaves an
administrator other than the user it deletes or gives another role. It is exact:
the runs of such requests are the runs that always have an administrator.
-/

namespace Vexil.Server

open Vexil.Lib Vexil.Kube

/-! ## Administrators -/

def HasAdmin (a : Accounts) : Prop :=
  ∃ name user, a.users.lookup name = some user ∧ user.role = "admin"

/-- An administrator of another name. -/
def OtherAdmin (a : Accounts) (name : String) : Prop :=
  ∃ other user, other ≠ name ∧ a.users.lookup other = some user ∧
    user.role = "admin"

/-- An administrator is the user of the name, or another one. -/
theorem HasAdmin.cases {a : Accounts} (h : HasAdmin a) (name : String) :
    (∃ user, a.users.lookup name = some user ∧ user.role = "admin") ∨
      OtherAdmin a name := by
  obtain ⟨other, user, huser, hrole⟩ := h
  by_cases hname : other = name
  · subst hname
    exact .inl ⟨user, huser, hrole⟩
  · exact .inr ⟨other, user, hname, huser, hrole⟩

theorem hasAdmin_setUser {a : Accounts} {name : String} {user : User} :
    HasAdmin (a.setUser name user) ↔
      user.role = "admin" ∨ OtherAdmin a name := by
  constructor
  · rintro ⟨other, u, hu, hrole⟩
    rw [Accounts.setUser, GoMap.lookup_insert] at hu
    split at hu
    · cases hu
      exact .inl hrole
    · next hname => exact .inr ⟨other, u, hname, hu, hrole⟩
  · rintro (hrole | ⟨other, u, hname, hu, hrole⟩)
    · refine ⟨name, user, ?_, hrole⟩
      rw [Accounts.setUser, GoMap.lookup_insert, if_pos rfl]
    · refine ⟨other, u, ?_, hrole⟩
      rw [Accounts.setUser, GoMap.lookup_insert, if_neg hname]
      exact hu

theorem hasAdmin_eraseUser {a : Accounts} {name : String} :
    HasAdmin (a.eraseUser name) ↔ OtherAdmin a name := by
  constructor
  · rintro ⟨other, u, hu, hrole⟩
    rw [Accounts.eraseUser, GoMap.lookup_erase] at hu
    split at hu
    · cases hu
    · next hname => exact ⟨other, u, hname, hu, hrole⟩
  · rintro ⟨other, u, hname, hu, hrole⟩
    refine ⟨other, u, ?_, hrole⟩
    rw [Accounts.eraseUser, GoMap.lookup_erase, if_neg hname]
    exact hu

/-- A deletion or another role leaves an administrator. -/
def LeavesAdmin (a : Accounts) : AccountEvent → Prop
  | .delete name => OtherAdmin a name
  | .update name role _ => role = "" ∨ role = "admin" ∨ OtherAdmin a name
  | .login _ _ _ | .logout _ | .create _ _ _ | .tick _ | .other => True

section
variable [Bcrypt]

theorem leavesAdmin_iff {a a' : Accounts} {e : AccountEvent} (ha : HasAdmin a)
    (h : AccountStep a e a') : LeavesAdmin a e ↔ HasAdmin a' := by
  cases e with
  | login token username password =>
      obtain ⟨_, _, _, rfl⟩ := h
      exact iff_of_true trivial ha
  | logout token =>
      obtain rfl := h
      exact iff_of_true trivial ha
  | create username password role =>
      obtain ⟨hnone, user, _, _, rfl⟩ := h
      refine iff_of_true trivial (hasAdmin_setUser.mpr (.inr ?_))
      rcases ha.cases username with ⟨user, huser, _⟩ | hother
      · rw [hnone] at huser
        cases huser
      · exact hother
  | update username role password =>
      obtain ⟨before, user, hbefore, hrole, _, rfl⟩ := h
      rw [hasAdmin_setUser, hrole]
      show role = "" ∨ role = "admin" ∨ OtherAdmin a username ↔ _
      by_cases hkeep : role = ""
      · rw [if_pos hkeep]
        refine iff_of_true (.inl hkeep) ?_
        rcases ha.cases username with ⟨user, huser, hadmin⟩ | hother
        · rw [hbefore] at huser
          cases huser
          exact .inl hadmin
        · exact .inr hother
      · rw [if_neg hkeep]
        exact or_iff_right hkeep
  | delete username =>
      obtain ⟨_, rfl⟩ := h
      exact hasAdmin_eraseUser.symm
  | tick now =>
      obtain rfl := h
      exact iff_of_true trivial ha
  | other =>
      obtain rfl := h
      exact iff_of_true trivial ha

/-- A start keeps an administrator, and makes one of an empty store. -/
theorem hasAdmin_start {a a' : Accounts} {password : String}
    (h : StartStep a password a') (ha : HasAdmin a ∨ a.users = ∅) :
    HasAdmin a' := by
  obtain ⟨user, _, hrole, rfl⟩ := h
  rw [hasAdmin_setUser, hrole]
  rcases ha with ha | hempty
  · rcases ha.cases "admin" with ⟨admin, hadmin, hrole⟩ | hother
    · rw [hadmin]
      exact .inl hrole
    · exact .inr hother
  · rw [hempty, Finmap.lookup_empty]
    exact .inl rfl

end

/-! ## Servers that are restarted -/

/-- A server at work, or a start of the process with this flag and environment
variable. -/
inductive LifeEvent where
  | serves (o : Occurrence)
  | starts (flag env : String)

section
variable [Bcrypt] [ClientGo] [Apimachinery]

/-- A start finds the users of the process before it, and its sessions or none.
The rest of the server is new. -/
def Lives (origins : String) (s : ServerState) :
    LifeEvent → ServerState → Prop
  | .serves o, s' => Occurs origins s o s'
  | .starts flag env, s' => ∃ m tr password,
      m.store.users = s.store.users ∧
      (m.store.sessions = s.store.sessions ∨ m.store.sessions = ∅) ∧
      Completes ServerStep (bootstrap flag env) m tr (.ok password) s'

/-- Each request leaves an administrator. -/
def Spares (s : ServerState) : LifeEvent → Prop
  | .serves o => LeavesAdmin s.accounts o.account
  | .starts _ _ => True

def Administered (s : ServerState) : Prop := HasAdmin s.accounts

variable {origins flag env : String} {s₀ s₁ s s' : ServerState}

theorem administered_start
    (h : Lives origins s (.starts flag env) s')
    (hs : Administered s ∨ s.store = .new) : Administered s' := by
  obtain ⟨m, tr, password, husers, _, hboot⟩ := h
  refine hasAdmin_start (bootstrap_accounts hboot) ?_
  rcases hs with hs | hnew
  · left
    obtain ⟨name, user, huser, hrole⟩ := hs
    refine ⟨name, user, ?_, hrole⟩
    show m.store.users.lookup name = some user
    rw [husers]
    exact huser
  · right
    show m.store.users = ∅
    rw [husers, hnew]
    rfl

theorem spares_iff {e : LifeEvent} (hs : Administered s)
    (h : Lives origins s e s') : Spares s e ↔ Administered s' := by
  cases e with
  | serves o => exact leavesAdmin_iff hs (occurs_account h)
  | starts flag env =>
      exact iff_of_true trivial (administered_start h (.inl hs))

/-- After the first start there is an administrator, and from then on the runs
in which each request leaves one are the runs that always have one. -/
theorem administered_iff {ls : List LifeEvent} (hnew : s₀.store = .new)
    (hstart : Lives origins s₀ (.starts flag env) s₁) :
    Administered s₁ ∧ (Run (Restrict (Lives origins) Spares) s₁ ls s ↔
      Run (Into (Lives origins) Administered) s₁ ls s) := by
  have hs₁ := administered_start hstart (.inr hnew)
  refine ⟨hs₁, run_restrict_iff_into ?_ hs₁⟩
  intro s e s' hs hstep
  exact spares_iff hs hstep

end

/-! The administrator signs in and makes the own account a viewer, before and
after there is a second administrator. -/

theorem otherAdmin_iff {a : Accounts} {name : String} : OtherAdmin a name ↔
    ∃ e ∈ a.users.entries, e.1 ≠ name ∧ e.2.role = "admin" := by
  constructor
  · rintro ⟨other, user, hname, huser, hrole⟩
    exact ⟨⟨other, user⟩, Finmap.mem_lookup_iff.mp huser, hname, hrole⟩
  · rintro ⟨⟨other, user⟩, hmem, hname, hrole⟩
    exact ⟨other, user, hname, Finmap.mem_lookup_iff.mpr hmem, hrole⟩

instance (a : Accounts) (name : String) : Decidable (OtherAdmin a name) :=
  let : Decidable (∃ e ∈ a.users.entries, e.1 ≠ name ∧ e.2.role = "admin") :=
    Multiset.decidableExistsMultiset
  decidable_of_iff' _ otherAdmin_iff

theorem hasAdmin_iff {a : Accounts} :
    HasAdmin a ↔ ∃ e ∈ a.users.entries, e.2.role = "admin" := by
  constructor
  · rintro ⟨name, user, huser, hrole⟩
    exact ⟨⟨name, user⟩, Finmap.mem_lookup_iff.mp huser, hrole⟩
  · rintro ⟨⟨name, user⟩, hmem, hrole⟩
    exact ⟨name, user, Finmap.mem_lookup_iff.mpr hmem, hrole⟩

instance (a : Accounts) : Decidable (HasAdmin a) :=
  let : Decidable (∃ e ∈ a.users.entries, e.2.role = "admin") :=
    Multiset.decidableExistsMultiset
  decidable_of_iff' _ hasAdmin_iff

instance (a : Accounts) (e : AccountEvent) : Decidable (LeavesAdmin a e) :=
  match e with
  | .delete name => inferInstanceAs (Decidable (OtherAdmin a name))
  | .update _ _ _ => inferInstanceAs (Decidable (_ ∨ _ ∨ _))
  | .login _ _ _ | .logout _ | .create _ _ _ | .tick _ | .other =>
      inferInstanceAs (Decidable True)

def createRoot : Request where
  method := "POST"
  url := ⟨"/api/v1/user%73", "/api/v1/users", by decide +kernel⟩
  authorization := adminBearer
  body := { createUser := some ⟨"root", "hunter2", "admin"⟩ }

def demoteAdmin : Request where
  method := "PUT"
  url := ⟨"/api/v1/users/admin", "/api/v1/users/admin", by decide +kernel⟩
  authorization := adminBearer
  body := { updateUser := some ⟨"", "viewer"⟩ }

theorem startTrace_lives {s : ServerState}
    {start : List ServerEvent × Except String String × ServerState}
    (hstart : startTrace s = start) (hok : start.2.1 = .ok "secret") :
    letI := labelSelectors
    letI := plainBcrypt
    letI := anyHost
    Lives "*" s (.starts "secret" "") start.2.2 := by
  have h := startTrace_eq s
  rw [hstart] at h
  let := labelSelectors
  let := plainBcrypt
  let := anyHost
  have hboot := completes_of_exec h
  rw [hok] at hboot
  exact ⟨s, _, _, rfl, .inl rfl, hboot⟩

theorem serveTrace_lives {req : Request} {s : ServerState}
    {r : List ServerEvent × Response × ServerState}
    (hr : serveTrace req s = r) :
    letI := labelSelectors
    letI := plainBcrypt
    letI := anyHost
    Lives "*" s (.serves (.served req r.2.1)) r.2.2 := by
  have h := serveTrace_eq req s
  rw [hr] at h
  let := labelSelectors
  let := plainBcrypt
  let := anyHost
  exact ⟨_, completes_of_exec h⟩

theorem administered_iff_sample :
    letI := labelSelectors
    letI := plainBcrypt
    letI := anyHost
    ∃ s₁ s r₁ r₂ r₃, Administered s₁ ∧
      Run (Into (Lives "*") Administered) s₁
        [.serves (.served signIn r₁), .serves (.served createRoot r₂),
          .serves (.served demoteAdmin r₃)] s := by
  have hend :
      let start := startTrace newServer
      let r₁ := serveTrace signIn start.2.2
      let r₂ := serveTrace createRoot r₁.2.2
      let r₃ := serveTrace demoteAdmin r₂.2.2
      start.2.1 = .ok "secret" ∧
        LeavesAdmin start.2.2.accounts (accountOf signIn r₁.2.1) ∧
        LeavesAdmin r₁.2.2.accounts (accountOf createRoot r₂.2.1) ∧
        LeavesAdmin r₂.2.2.accounts (accountOf demoteAdmin r₃.2.1) := by
    decide +kernel
  dsimp only at hend
  -- the four traces from here on are any that do this
  generalize hstart : startTrace newServer = start at hend
  generalize h₁ : serveTrace signIn start.2.2 = r₁ at hend
  generalize h₂ : serveTrace createRoot r₁.2.2 = r₂ at hend
  generalize h₃ : serveTrace demoteAdmin r₂.2.2 = r₃ at hend
  obtain ⟨hok, hsignIn, hcreate, hdemote⟩ := hend
  let := labelSelectors
  let := plainBcrypt
  let := anyHost
  have hrun : Run (Restrict (Lives "*") Spares) start.2.2
      [.serves (.served signIn r₁.2.1), .serves (.served createRoot r₂.2.1),
        .serves (.served demoteAdmin r₃.2.1)] r₃.2.2 :=
    .cons ⟨serveTrace_lives h₁, hsignIn⟩
      (.cons ⟨serveTrace_lives h₂, hcreate⟩
        (.cons ⟨serveTrace_lives h₃, hdemote⟩ .nil))
  obtain ⟨hstarted, hiff⟩ :=
    administered_iff rfl (startTrace_lives hstart hok)
  exact ⟨_, _, _, _, _, hstarted, hiff.mp hrun⟩

/-- There is no administrator any more, and a restart does not make one. -/
theorem demotion_locks_out :
    letI := labelSelectors
    letI := plainBcrypt
    letI := anyHost
    ∃ s₁ s₂ s₃ s₄ r₁ r₂,
      Lives "*" newServer (.starts "secret" "") s₁ ∧
      Lives "*" s₁ (.serves (.served signIn r₁)) s₂ ∧
      s₂.store.getSession s₂.now adminToken = some ("admin", "admin") ∧
      Lives "*" s₂ (.serves (.served demoteAdmin r₂)) s₃ ∧
      r₂.status = 200 ∧ ¬ Administered s₃ ∧
      Lives "*" s₃ (.starts "secret" "") s₄ ∧ ¬ Administered s₄ := by
  have hend :
      let start := startTrace newServer
      let r₁ := serveTrace signIn start.2.2
      let r₂ := serveTrace demoteAdmin r₁.2.2
      let again := startTrace r₂.2.2
      start.2.1 = .ok "secret" ∧
        r₁.2.2.store.getSession r₁.2.2.now adminToken =
          some ("admin", "admin") ∧
        r₂.2.1.status = 200 ∧ ¬ HasAdmin r₂.2.2.accounts ∧
        again.2.1 = .ok "secret" ∧ ¬ HasAdmin again.2.2.accounts := by
    decide +kernel
  dsimp only at hend
  generalize hstart : startTrace newServer = start at hend
  generalize h₁ : serveTrace signIn start.2.2 = r₁ at hend
  generalize h₂ : serveTrace demoteAdmin r₁.2.2 = r₂ at hend
  generalize hagain : startTrace r₂.2.2 = again at hend
  obtain ⟨hok, hvalid, haccepted, hnone, hokAgain, hstill⟩ := hend
  exact ⟨_, _, _, _, _, _, startTrace_lives hstart hok, serveTrace_lives h₁,
    hvalid, serveTrace_lives h₂, haccepted, hnone,
    startTrace_lives hagain hokAgain, hstill⟩

end Vexil.Server
