import Vexil.Proofs.SessionAgreement
import Vexil.Server.Accounts

/-!
# Which tokens are valid

A server that starts with an empty store and serves one request after another.
At any moment the valid tokens are those that a login returned at most 24 hours
ago and that no logout has carried since; and each stands for the user that its
login found, in the role this user had then, by the password that was set for it
last.

One direction goes back through the run to the event that made the session, the
other goes forward from it: nothing but a logout with the token removes a
session, and nothing but a login that returns the same token replaces it. For
the passwords the invariant is that each stored hash is one of the password set
last for the user.
-/

namespace Vexil.Server

open Vexil.Lib Vexil.Kube

/-! ## Passwords -/

/-- The password an event sets for a user. -/
def passwordSet (name : String) : AccountEvent → Option String
  | .create username password _ =>
      if username = name then some password else none
  | .update username _ password =>
      if username = name ∧ password ≠ "" then some password else none
  | .login _ _ _ | .logout _ | .delete _ | .tick _ | .other => none

/-- The password set last for a user; the start sets the one of `admin`. -/
def lastPassword (adminPassword name : String) (es : List AccountEvent) :
    Option String :=
  (es.filterMap (passwordSet name)).getLast?.or
    (if name = "admin" then some adminPassword else none)

theorem lastPassword_append (adminPassword name : String)
    (es : List AccountEvent) (e : AccountEvent) :
    lastPassword adminPassword name (es ++ [e]) =
      (passwordSet name e).or (lastPassword adminPassword name es) := by
  unfold lastPassword
  rw [List.filterMap_append, List.getLast?_append]
  cases h : passwordSet name e with
  | none => simp [h]
  | some password => simp [h]

section
variable [Bcrypt]

/-- A hash is accepted for its own password only. -/
def CompareExact : Prop := ∀ hash password attempt, IsHash hash password →
  (Bcrypt.compareHashAndPassword hash attempt = true ↔ attempt = password)

/-- Each stored hash is one of the user's password. -/
def Hashed (passwords : String → Option String) (a : Accounts) : Prop :=
  ∀ name user, a.users.lookup name = some user →
    ∃ password, passwords name = some password ∧
      IsHash user.passwordHash password

theorem Hashed.step {passwords : String → Option String} {a a' : Accounts}
    {e : AccountEvent} (h : Hashed passwords a) (hstep : AccountStep a e a') :
    Hashed (fun name => (passwordSet name e).or (passwords name)) a' := by
  intro name user huser
  cases e with
  | login token username password =>
      obtain ⟨_, _, _, rfl⟩ := hstep
      exact h name user huser
  | logout token =>
      obtain rfl := hstep
      exact h name user huser
  | create username password role =>
      obtain ⟨_, stored, hhash, _, rfl⟩ := hstep
      rw [Accounts.setUser, GoMap.lookup_insert] at huser
      split at huser
      · next hname =>
          cases huser
          refine ⟨password, ?_, hhash⟩
          simp [passwordSet, hname]
      · next hname =>
          obtain ⟨old, hold, hhash⟩ := h name user huser
          refine ⟨old, ?_, hhash⟩
          simp [passwordSet, Ne.symm hname, hold]
  | update username role password =>
      obtain ⟨before, stored, hbefore, _, hhash, rfl⟩ := hstep
      rw [Accounts.setUser, GoMap.lookup_insert] at huser
      split at huser
      · next hname =>
          cases huser
          subst hname
          by_cases hpass : password = ""
          · rw [if_pos hpass] at hhash
            rw [hhash]
            obtain ⟨old, hold, hhash⟩ := h name before hbefore
            refine ⟨old, ?_, hhash⟩
            simp [passwordSet, hpass, hold]
          · rw [if_neg hpass] at hhash
            refine ⟨password, ?_, hhash⟩
            simp [passwordSet, hpass]
      · next hname =>
          obtain ⟨old, hold, hhash⟩ := h name user huser
          refine ⟨old, ?_, hhash⟩
          simp [passwordSet, Ne.symm hname, hold]
  | delete username =>
      obtain ⟨_, rfl⟩ := hstep
      rw [Accounts.eraseUser, GoMap.lookup_erase] at huser
      split at huser
      · cases huser
      · exact h name user huser
  | tick now =>
      obtain rfl := hstep
      exact h name user huser
  | other =>
      obtain rfl := hstep
      exact h name user huser

/-! ## One event and one token -/

/-- The token an event returned. -/
def issued : AccountEvent → Option String
  | .login token _ _ => some token
  | .logout _ | .create _ _ _ | .update _ _ _ | .delete _ | .tick _
  | .other => none

theorem sessions_kept {a a' : Accounts} {e : AccountEvent} {token : String}
    (h : AccountStep a e a') (hlogout : e ≠ .logout token)
    (hlogin : issued e ≠ some token) :
    a'.sessions.lookup token = a.sessions.lookup token := by
  cases e with
  | login t username password =>
      obtain ⟨_, _, _, rfl⟩ := h
      rw [Accounts.setSession, GoMap.lookup_insert, if_neg]
      rintro rfl
      exact hlogin rfl
  | logout t =>
      obtain rfl := h
      rw [Accounts.eraseSession, GoMap.lookup_erase, if_neg]
      rintro rfl
      exact hlogout rfl
  | create username password role =>
      obtain ⟨_, _, _, _, rfl⟩ := h
      rfl
  | update username role password =>
      obtain ⟨_, _, _, _, _, rfl⟩ := h
      rfl
  | delete username =>
      obtain ⟨_, rfl⟩ := h
      rfl
  | tick now =>
      obtain rfl := h
      rfl
  | other =>
      obtain rfl := h
      rfl

/-- A session of the state after an event is older than it and was not logged
out, or is the one the event opened. -/
theorem session_origin {a a' : Accounts} {e : AccountEvent} {token : String}
    {sess : MemSession} (h : AccountStep a e a')
    (hsess : a'.sessions.lookup token = some sess) :
    (a.sessions.lookup token = some sess ∧ e ≠ .logout token) ∨
    ∃ username password user, e = .login token username password ∧
      a.users.lookup username = some user ∧
      Bcrypt.compareHashAndPassword user.passwordHash password = true ∧
      sess = ⟨username, user.role, a.now + tokenExpiry⟩ := by
  by_cases hlogout : e = .logout token
  · subst hlogout
    obtain rfl := h
    rw [Accounts.eraseSession, GoMap.lookup_erase, if_pos rfl] at hsess
    cases hsess
  · by_cases hlogin : issued e = some token
    · cases e with
      | login t username password =>
          cases hlogin
          obtain ⟨user, huser, hcompare, rfl⟩ := h
          rw [Accounts.setSession, GoMap.lookup_insert, if_pos rfl] at hsess
          cases hsess
          exact .inr ⟨username, password, user, rfl, huser, hcompare, rfl⟩
      | _ => cases hlogin
    · rw [sessions_kept h hlogout hlogin] at hsess
      exact .inl ⟨hsess, hlogout⟩

/-! ## Runs -/

/-- The clock does not go back. -/
def Forward (s : ServerState) : Occurrence → Prop
  | .move (.tick now) => s.now ≤ now
  | .served _ _ | .move (.kube _ _) => True

/-- The token a request returned. -/
def returnedToken (o : Occurrence) : Option String := issued o.account

variable [ClientGo] [Apimachinery]

/-- One request after another, while time passes. -/
def Timed (origins : String) : ServerState → Occurrence → ServerState → Prop :=
  Restrict (Occurs origins) Forward

variable {origins : String} {s₁ s : ServerState} {os : List Occurrence}

omit [Apimachinery] in
theorem now_serverStep {s s' : ServerState} {e : ServerEvent}
    (h : ServerStep s e s') : s'.now = s.now := by
  obtain ⟨c, r⟩ := e
  cases c with
  | store c =>
      obtain ⟨uuid, _, rfl⟩ := h
      rfl
  | clusters c =>
      obtain ⟨fault, order, _, _, rfl⟩ := h
      rfl
  | kube client c =>
      obtain ⟨k, _, rfl⟩ := h
      rfl
  | now | randRead n | generateFromPassword password =>
      obtain ⟨_, rfl⟩ := h
      rfl

omit [Bcrypt] [ClientGo] [Apimachinery] in
theorem accounts_now (s : ServerState) : s.accounts.now = s.now := rfl

theorem now_timed {s s' : ServerState} {o : Occurrence}
    (h : Timed origins s o s') : s.now ≤ s'.now := by
  cases o with
  | served req resp =>
      obtain ⟨⟨tr, hserved⟩, _⟩ := h
      have hsame : s'.now = s.now :=
        hserved.2.keeps fun _ _ _ _ hstep => now_serverStep hstep
      omega
  | move w =>
      obtain ⟨hmove, hforward⟩ := h
      have hs : s' = w.apply s := hmove
      subst hs
      cases w with
      | kube client w => exact Nat.le_refl _
      | tick now => exact hforward

theorem now_run {s s' : ServerState} (h : Run (Timed origins) s os s') :
    s.now ≤ s'.now := by
  induction h with
  | nil => exact Nat.le_refl _
  | cons hstep _ ih => exact (now_timed hstep).trans ih

theorem hashed_run {adminPassword : String}
    (hrun : Run (Timed origins) s₁ os s)
    (hs₁ : Hashed (fun name => lastPassword adminPassword name [])
      s₁.accounts) :
    Hashed (fun name => lastPassword adminPassword name
      (os.map Occurrence.account)) s.accounts := by
  refine Run.reverse_induction (P := fun os s =>
    Hashed (fun name => lastPassword adminPassword name
      (os.map Occurrence.account)) s.accounts) ?_ ?_ hrun
  · exact hs₁
  · intro os m o s' _ ih hstep
    simp only [List.map_append, List.map_singleton, lastPassword_append]
    exact ih.step (occurs_account hstep.1)

/-- Where a session of the last state comes from: in the state `m`, which the
run went through, a login returned the token. -/
def Opened (origins adminPassword : String) (s₁ : ServerState)
    (os : List Occurrence) (s : ServerState) (token : String)
    (sess : MemSession) : Prop :=
  ∃ before o after m username password user, os = before ++ o :: after ∧
    Run (Timed origins) s₁ before m ∧ Run (Timed origins) m (o :: after) s ∧
    o.account = .login token username password ∧
    m.store.users.lookup username = some user ∧
    lastPassword adminPassword username (before.map Occurrence.account) =
      some password ∧
    sess = ⟨username, user.role, m.now + tokenExpiry⟩ ∧
    ∀ o' ∈ after, o'.account ≠ .logout token

theorem opened_of_session {adminPassword token : String} (hexact : CompareExact)
    (hrun : Run (Timed origins) s₁ os s)
    (hs₁ : Hashed (fun name => lastPassword adminPassword name [])
      s₁.accounts)
    (hnone : s₁.store.sessions = ∅) {sess : MemSession}
    (hsess : s.store.sessions.lookup token = some sess) :
    Opened origins adminPassword s₁ os s token sess := by
  refine Run.reverse_induction (P := fun os s =>
    ∀ sess, s.store.sessions.lookup token = some sess →
      Opened origins adminPassword s₁ os s token sess) ?_ ?_ hrun sess hsess
  · intro sess hsess
    rw [hnone, Finmap.lookup_empty] at hsess
    cases hsess
  · intro os m o s' hm ih hstep sess hsess
    rcases session_origin (occurs_account hstep.1) hsess with
      ⟨hold, hlogout⟩ | ⟨username, password, user, ho, huser, hcompare, hnew⟩
    · obtain ⟨before, o', after, m', username, password, user, rfl, hbefore,
        hafter, ho', huser, hpass, hsess', hkept⟩ := ih sess hold
      refine ⟨before, o', after ++ [o], m', username, password, user, by simp,
        hbefore, ?_, ho', huser, hpass, hsess', ?_⟩
      · exact run_snoc.mpr ⟨m, hafter, hstep⟩
      · intro x hx
        rcases List.mem_append.mp hx with hx | hx
        · exact hkept x hx
        · rw [List.mem_singleton.mp hx]
          exact hlogout
    · obtain ⟨stored, hstored, hhash⟩ := hashed_run hm hs₁ username user huser
      have hpass : password = stored :=
        (hexact _ _ _ hhash).mp hcompare
      subst hpass
      rw [accounts_now] at hnew
      refine ⟨os, o, [], m, username, password, user, rfl, hm,
        .cons hstep .nil, ho, huser, hstored, hnew, ?_⟩
      intro o' ho'
      cases ho'

theorem session_of_opened {adminPassword token : String} {sess : MemSession}
    (hdistinct : (os.filterMap returnedToken).Nodup)
    (h : Opened origins adminPassword s₁ os s token sess) :
    s.store.sessions.lookup token = some sess := by
  obtain ⟨before, o, after, m, username, password, user, rfl, _, hafter, ho,
    huser, _, rfl, hkept⟩ := h
  obtain ⟨m', hstep, hrest⟩ := run_cons.mp hafter
  have hopen := occurs_account hstep.1
  rw [ho] at hopen
  obtain ⟨user', huser', _, hm'⟩ := hopen
  have hsame : user' = user := by
    have huser' : m.store.users.lookup username = some user' := huser'
    rw [huser] at huser'
    exact (Option.some.inj huser').symm
  subst hsame
  have hfresh : ∀ o' ∈ after, issued o'.account ≠ some token := by
    intro o' ho' hissued
    have hreturned : returnedToken o = some token := by
      rw [returnedToken, ho]
      rfl
    rw [List.filterMap_append, List.filterMap_cons_some hreturned] at hdistinct
    have hnodup := (List.nodup_append.mp hdistinct).2.1
    refine (List.nodup_cons.mp hnodup).1 ?_
    exact List.mem_filterMap.mpr ⟨o', ho', hissued⟩
  have hlookup : s.accounts.sessions.lookup token =
      m'.accounts.sessions.lookup token :=
    hrest.keeps (f := fun s => s.accounts.sessions.lookup token)
      fun o' ho' _ _ hstep' => sessions_kept (occurs_account hstep'.1)
        (hkept o' ho') (hfresh o' ho')
  show s.accounts.sessions.lookup token = _
  rw [hlookup, hm', Accounts.setSession, GoMap.lookup_insert, if_pos rfl,
    accounts_now]

/-- In every run of a server that started with an empty store, a token is valid
for a user and a role if and only if a login for this user returned it, no more
than 24 hours ago, no logout has carried it since, and at the login the user had
this role and the password was the one set last. -/
theorem session_lifecycle {flag env adminPassword : String}
    {s₀ : ServerState} {tr : List ServerEvent} {token username role : String}
    (hexact : CompareExact) (hnew : s₀.store = .new)
    (hboot : Completes ServerStep (bootstrap flag env) s₀ tr
      (.ok adminPassword) s₁)
    (hrun : Run (Timed origins) s₁ os s)
    (hdistinct : (os.filterMap returnedToken).Nodup) :
    s.store.getSession s.now token = some (username, role) ↔
      ∃ before o after m password, os = before ++ o :: after ∧
        Run (Timed origins) s₁ before m ∧
        Run (Timed origins) m (o :: after) s ∧
        o.account = .login token username password ∧
        m.now ≤ s.now ∧ s.now ≤ m.now + tokenExpiry ∧
        (∀ o' ∈ after, o'.account ≠ .logout token) ∧
        HoldsRole m username role ∧
        lastPassword adminPassword username
          (before.map Occurrence.account) = some password := by
  obtain ⟨admin, hhash, _, hs₁⟩ := bootstrap_accounts hboot
  have hfresh : s₀.accounts.users = ∅ ∧ s₀.accounts.sessions = ∅ := by
    unfold ServerState.accounts
    rw [hnew]
    exact ⟨rfl, rfl⟩
  have hnone : s₁.store.sessions = ∅ := by
    have hsessions := congrArg Accounts.sessions hs₁
    exact hsessions.trans hfresh.2
  have hhashed : Hashed (fun name => lastPassword adminPassword name [])
      s₁.accounts := by
    intro name user huser
    rw [hs₁, Accounts.setUser, hfresh.1, GoMap.lookup_insert] at huser
    split at huser
    · next hname =>
        cases huser
        exact ⟨adminPassword, if_pos hname, hhash⟩
    · rw [Finmap.lookup_empty] at huser
      cases huser
  unfold MemoryStore.getSession
  constructor
  · intro hvalid
    split at hvalid
    · cases hvalid
    · next sess hsess =>
        split at hvalid
        · cases hvalid
        · next hlive =>
            cases hvalid
            obtain ⟨before, o, after, m, name, password, user, rfl, hbefore,
              hafter, ho, huser, hpass, rfl, hkept⟩ :=
                opened_of_session hexact hrun hhashed hnone hsess
            refine ⟨before, o, after, m, password, rfl, hbefore, hafter, ho,
              now_run hafter, ?_, hkept, ⟨user, huser, rfl⟩, hpass⟩
            exact Nat.le_of_not_lt hlive
  · rintro ⟨before, o, after, m, password, rfl, hbefore, hafter, ho, _, hlive,
      hkept, ⟨user, huser, rfl⟩, hpass⟩
    have hsess : s.store.sessions.lookup token =
        some ⟨username, user.role, m.now + tokenExpiry⟩ :=
      session_of_opened hdistinct ⟨before, o, after, m, username, password,
        user, rfl, hbefore, hafter, ho, huser, hpass, rfl, hkept⟩
    rw [hsess]
    exact if_neg (Nat.not_lt.mpr hlive)

end

/-! A server is started with a password, the administrator signs in, and some
time passes. -/

theorem plainBcrypt_exact : @CompareExact plainBcrypt := by
  rintro hash password attempt ⟨salt, hsalt⟩
  have hsalt : (if password.utf8ByteSize > 72 then
      .error "bcrypt: password length exceeds 72 bytes"
    else .ok (String.ofList
      ((salt.toList ++ List.replicate 22 '.').take 22 ++ password.toList))) =
        (.ok hash : Except String String) := hsalt
  split at hsalt
  · cases hsalt
  · cases hsalt
    show decide (_ = attempt.toList) = true ↔ _
    have hlen :
        ((salt.toList ++ List.replicate 22 '.').take 22).length = 22 := by simp
    rw [decide_eq_true_eq, String.toList_ofList, List.drop_left' hlen,
      String.toList_inj]
    exact eq_comm

def newServer : ServerState where
  store := .new
  clusters := ⟨∅⟩
  kube _ := {}
  now := 0

/-- A start with the password `secret`. -/
def startTrace (s : ServerState) :
    List ServerEvent × Except String String × ServerState :=
  letI := plainBcrypt
  letI := anyHost
  (bootstrap "secret" "").exec (ServerCall.serve {}) s

theorem startTrace_eq (s : ServerState) :
    letI := plainBcrypt
    letI := anyHost
    (bootstrap "secret" "").exec (ServerCall.serve {}) s = startTrace s := rfl

/-- What a token is made of here. -/
def ones : Oracle := { bytes := List.replicate 32 1 }

def serveTrace (req : Request) (s : ServerState) :
    List ServerEvent × Response × ServerState :=
  letI := labelSelectors
  letI := plainBcrypt
  letI := anyHost
  (serve "*" req).exec (ServerCall.serve ones) s

theorem serveTrace_eq (req : Request) (s : ServerState) :
    letI := labelSelectors
    letI := plainBcrypt
    letI := anyHost
    (serve "*" req).exec (ServerCall.serve ones) s =
      serveTrace req s := rfl

/-- The administrator signs in, under an escaped path. -/
def signIn : Request where
  method := "POST"
  url := ⟨"/api/v1/auth/log%69n", "/api/v1/auth/login", by decide +kernel⟩
  body := { login := some ⟨"admin", "secret"⟩ }

def adminToken : String := hexEncode (List.replicate 32 1)

theorem session_lifecycle_sample :
    letI := labelSelectors
    letI := plainBcrypt
    letI := anyHost
    ∃ s₁ s resp before o after m password,
      [.served signIn resp, .move (.tick 5)] = before ++ o :: after ∧
      Run (Timed "*") s₁ before m ∧ Run (Timed "*") m (o :: after) s ∧
      o.account = .login adminToken "admin" password ∧
      m.now ≤ s.now ∧ s.now ≤ m.now + tokenExpiry ∧
      (∀ o' ∈ after, o'.account ≠ .logout adminToken) ∧
      HoldsRole m "admin" "admin" ∧
      lastPassword "secret" "admin" (before.map Occurrence.account) =
        some password := by
  have hend : (startTrace newServer).2.1 = .ok "secret" ∧
      (serveTrace signIn (startTrace newServer).2.2).2.2.now ≤ 5 ∧
      (serveTrace signIn (startTrace newServer).2.2).2.2.store.getSession 5
        adminToken = some ("admin", "admin") := by decide +kernel
  have hstart := startTrace_eq newServer
  have hserve := serveTrace_eq signIn (startTrace newServer).2.2
  -- nothing is to be computed from here on
  generalize startTrace newServer = start at *
  generalize serveTrace signIn start.2.2 = r at *
  obtain ⟨hok, htime, hvalid⟩ := hend
  let := labelSelectors
  let := plainBcrypt
  let := anyHost
  have hboot := completes_of_exec hstart
  rw [hok] at hboot
  have hrun : Run (Timed "*") start.2.2
      [.served signIn r.2.1, .move (.tick 5)] { r.2.2 with now := 5 } :=
    .cons ⟨⟨_, completes_of_exec hserve⟩, trivial⟩
      (.cons ⟨rfl, htime⟩ .nil)
  have hdistinct : ([.served signIn r.2.1, .move (.tick 5)].filterMap
      returnedToken).Nodup := by
    have htick : returnedToken (.move (.tick 5)) = none := rfl
    cases h : returnedToken (.served signIn r.2.1) with
    | none => simp [h, htick]
    | some token => simp [h, htick]
  exact ⟨_, _, _, (session_lifecycle plainBcrypt_exact rfl hboot hrun
    hdistinct).mp hvalid⟩

end Vexil.Server
