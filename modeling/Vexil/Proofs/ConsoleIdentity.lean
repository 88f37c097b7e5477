import Vexil.Proofs.SessionLife
import Vexil.Web.Console

/-!
# Who a tab shows, and who acts

A tab shows the user that its own store has, and hides what the role of this
user is not for. The server takes name and role from the session of the token
that a request carries, and the token comes from the storage, which all tabs of
the browser share. Nothing compares the two.

The storage and the stores are filled in pairs, a token and the user that one
response to a sign-in told with it, and emptied in pairs. So the storage always
names the user whom the server will take its token for, for as long as the
session lasts, whatever is on its way, gets lost or comes too late, and whatever
other clients do. What a tab shows is that user if the tab still has the token
of the storage. It need not have: when another tab signs in, this one goes on
showing the user it had, and acts for the other.
-/

namespace Vexil.Web

open Vexil.Lib Vexil.Kube Vexil.Server

/-! ## As whom a request is taken -/

section
variable [Bcrypt] [ClientGo] {req : Request} {s s' : ServerState}
variable {tr : List ServerEvent} {resp : Response}

/-- As whom `Auth` takes a request. -/
def actor (s : ServerState) (r : Request) : Option (String × String) :=
  if extractBearerToken r = "" then none
  else s.store.getSession s.now (extractBearerToken r)

theorem auth_actor {next : Request → UserContext → ServerProg Response}
    {r : Request} (hauth : skipsAuth r = false)
    (h : Completes ServerStep (auth next r) s tr resp s') :
    (actor s r = none ∧ resp = Server.unauthorized ∧ s' = s) ∨
    ∃ username role tr', actor s r = some (username, role) ∧
      Completes ServerStep (next r ⟨username, role⟩) s tr' resp s' := by
  unfold auth at h
  unfold actor
  rw [hauth] at h
  dsimp only at h
  split at h
  · next hskips => cases hskips
  · split at h
    · next hempty =>
        obtain ⟨_, rfl, rfl⟩ := completes_ret.mp h
        exact .inl ⟨if_pos hempty, rfl, rfl⟩
    · next hempty =>
        rw [if_neg hempty]
        obtain ⟨sess, tr', m, _, ⟨uuid, hanswer, rfl⟩, h⟩ :=
          completes_call.mp h
        change s.store.getSession s.now _ = sess at hanswer
        rw [hanswer]
        cases sess with
        | none =>
            obtain ⟨_, rfl, rfl⟩ := completes_ret.mp h
            exact .inl ⟨rfl, rfl, rfl⟩
        | some sess => exact .inr ⟨sess.1, sess.2, tr', rfl, h⟩

variable [Apimachinery] {origins : String}

/-- What `CORS` and `Auth` leave of a request that is no preflight: it gets to
the router as nobody's, is turned away, or gets there as the user it is taken
for. -/
theorem serve_mux (hmethod : req.method ≠ "OPTIONS")
    (h : Completes ServerStep (serve origins req) s tr resp s') :
    ∃ resp' tr', resp'.status = resp.status ∧ resp'.body = resp.body ∧
      ((skipsAuth req = true ∧
          Completes ServerStep (mux req {}) s tr' resp' s') ∨
        (actor s req = none ∧ resp' = Server.unauthorized ∧ s' = s) ∨
        ∃ username role, actor s req = some (username, role) ∧
          Completes ServerStep (mux req ⟨username, role⟩) s tr' resp' s') := by
  unfold serve cors at h
  dsimp only at h
  rw [if_neg hmethod] at h
  obtain ⟨resp', tr', _, m, _, h, hret⟩ := completes_bind h
  obtain ⟨_, rfl, rfl⟩ := completes_ret.mp hret
  cases hskip : skipsAuth req with
  | true =>
      unfold auth at h
      rw [if_pos hskip] at h
      exact ⟨resp', tr', rfl, rfl, .inl ⟨rfl, h⟩⟩
  | false =>
      rcases auth_actor hskip h with hnone | ⟨username, role, tr', hactor, h⟩
      · exact ⟨resp', tr', rfl, rfl, .inr (.inl hnone)⟩
      · exact ⟨resp', tr', rfl, rfl, .inr (.inr ⟨username, role, hactor, h⟩)⟩

end

/-! ## What a sign-in tells -/

section
variable [Bcrypt] [ClientGo] {req : Request} {ctx : UserContext}
variable {s s' : ServerState} {resp : Response} {tr : List ServerEvent}
variable {t : String} {u : MeResponse}

/-- The session of this token is the user's. -/
def IsSession (s : ServerState) (t : String) (u : MeResponse) : Prop :=
  ∃ expiresAt, s.accounts.sessions.lookup t =
    some ⟨u.username, u.role, expiresAt⟩

/-- A success, which tells a token and its user. -/
def Tells (req : Request) (resp : Response) (s' : ServerState) : Prop :=
  ∃ body t u, req.body.login = some body ∧ resp.body = .login t u ∧
    IsSession s' t u

/-- Any other answer. -/
def Fails (resp : Response) : Prop :=
  ¬(200 ≤ resp.status ∧ resp.status ≤ 299) ∧
    ∀ t u, resp.body ≠ .login t u

omit [Bcrypt] [ClientGo] in
theorem fails_status (resp : Response)
    (h : ¬(200 ≤ resp.status ∧ resp.status ≤ 299) := by decide)
    (hbody : ∀ t u, resp.body ≠ .login t u := by nofun) : Fails resp :=
  ⟨h, hbody⟩

theorem login_answers (ctx : UserContext) (values : String → String)
    (h : Completes ServerStep (AuthHandler.login req ctx values) s tr resp s') :
    Tells req resp s' ∨ Fails resp := by
  unfold AuthHandler.login at h
  split at h
  · obtain ⟨_, rfl, rfl⟩ := completes_ret.mp h
    exact .inr (fails_status _)
  · next body hreq =>
      split at h
      · obtain ⟨_, rfl, rfl⟩ := completes_ret.mp h
        exact .inr (fails_status _)
      · obtain ⟨found, _, m, _, _, hrest⟩ := completes_call.mp h
        cases found with
        | error err =>
            obtain ⟨_, rfl, rfl⟩ := completes_ret.mp hrest
            exact .inr (fails_status _)
        | ok user =>
            dsimp only at hrest
            split at hrest
            · obtain ⟨bytes, _, m₁, _, _, hrest⟩ := completes_call.mp hrest
              cases bytes with
              | error err =>
                  obtain ⟨_, rfl, rfl⟩ := completes_ret.mp hrest
                  exact .inr (fails_status _)
              | ok b =>
                  obtain ⟨now, _, m₂, _, _, hrest⟩ := completes_call.mp hrest
                  obtain ⟨done, _, m₃, _, hcreate, hrest⟩ :=
                    completes_call.mp hrest
                  obtain ⟨rfl, hm₃⟩ := createSession_serverStep hcreate
                  obtain ⟨_, rfl, rfl⟩ := completes_ret.mp hrest
                  refine .inl ⟨body, _, _, hreq, rfl, now + tokenExpiry, ?_⟩
                  rw [hm₃, Accounts.setSession, GoMap.lookup_insert,
                    if_pos rfl]
            · obtain ⟨_, rfl, rfl⟩ := completes_ret.mp hrest
              exact .inr (fails_status _)

variable [Apimachinery] {origins : String}

theorem mux_answers (hg : Goes req "POST" loginPath)
    (h : Completes ServerStep (mux req ctx) s tr resp s') :
    Tells req resp s' ∨ Fails resp := by
  have hmem : ⟨"POST", loginPath, AuthHandler.login⟩ ∈
      (routes : List (Route Handler)) := .head _
  unfold mux at h
  split at h
  · next hd values hserve =>
      obtain ⟨r, hr, rfl, hmethod, hmatch, _⟩ := serveMux_handler hserve
      have hpost : r.method = "POST" := by
        rcases hmethod with hm | ⟨hhead, _⟩
        · exact hm.trans hg.1
        · rw [hg.1] at hhead
          exact absurd hhead (by decide)
      have hsame := route_unique hr hmem hpost (by rw [hmatch]; rfl) hg.2
      subst hsame
      exact login_answers ctx (pathValue values) h
  · obtain ⟨_, rfl, rfl⟩ := completes_ret.mp h
    exact .inr (fails_status _)
  · obtain ⟨_, rfl, rfl⟩ := completes_ret.mp h
    refine .inr (fails_status _ ?_)
    show ¬(200 ≤ 405 ∧ 405 ≤ 299)
    decide
  · obtain ⟨_, rfl, rfl⟩ := completes_ret.mp h
    exact .inr (fails_status _)
  · obtain ⟨_, rfl, rfl⟩ := completes_ret.mp h
    exact .inr (fails_status _)

/-- The server answers a sign-in with a session, or it fails. -/
theorem serve_answers (hg : Goes req "POST" loginPath)
    (h : Completes ServerStep (serve origins req) s tr resp s') :
    Tells req resp s' ∨ Fails resp := by
  have hmethod : req.method ≠ "OPTIONS" := by
    rw [hg.1]
    decide
  obtain ⟨resp', tr', hstatus, hbody, hcase⟩ := serve_mux hmethod h
  unfold Tells Fails
  rw [← hstatus, ← hbody]
  rcases hcase with ⟨_, h⟩ | ⟨_, rfl, _⟩ | ⟨username, role, _, h⟩
  · exact mux_answers hg h
  · exact .inr (fails_status _)
  · exact mux_answers hg h

omit [Bcrypt] [ClientGo] [Apimachinery] in
/-- A sign-in that told a token returned it. -/
theorem returnedToken_login (hg : Goes req "POST" loginPath)
    (hreq : ∃ body, req.body.login = some body)
    (hbody : resp.body = .login t u) :
    returnedToken (.served req resp) = some t := by
  obtain ⟨body, hreq⟩ := hreq
  have haccount : accountOf req resp =
      .login t body.username body.password := by
    unfold accountOf
    rw [if_pos hg, loginOf, hreq, hbody]
  rw [returnedToken, Occurrence.account, haccount]
  rfl

/-! ## The session of a token -/

/-- If there is a session of this token, it is the user's. -/
def Agrees (s : ServerState) (t : String) (u : MeResponse) : Prop :=
  ∀ sess, s.accounts.sessions.lookup t = some sess →
    sess.username = u.username ∧ sess.role = u.role

omit [Bcrypt] [ClientGo] [Apimachinery] in
theorem IsSession.agrees (h : IsSession s t u) : Agrees s t u := by
  intro sess hsess
  obtain ⟨expiresAt, hlookup⟩ := h
  rw [hlookup] at hsess
  cases hsess
  exact ⟨rfl, rfl⟩

/-- Only a sign-in that returns the token can give it to another. -/
theorem Agrees.occurs {o : Occurrence} (ha : Agrees s t u)
    (h : Occurs origins s o s') (hfresh : returnedToken o ≠ some t) :
    Agrees s' t u := by
  intro sess hsess
  rcases session_origin (occurs_account h) hsess with
    ⟨hold, _⟩ | ⟨username, password, user, ho, _⟩
  · exact ha sess hold
  · refine absurd ?_ hfresh
    rw [returnedToken, ho]
    rfl

end

/-! ## What the browser has -/

/-- Both, or neither. -/
def Kept.IsPair (k : Kept) : Prop := k = {} ∨ ∃ t u, k = ⟨some t, some u⟩

theorem Kept.IsPair.of_token {k : Kept} {t : String} (h : k.IsPair)
    (ht : k.token = some t) : ∃ u, k = ⟨some t, some u⟩ := by
  rcases h with rfl | ⟨t', u, rfl⟩
  · cases ht
  · cases ht
    exact ⟨u, rfl⟩

namespace Console

variable {ι : Type}

/-- A token and a user that came together: in the storage, in a tab, or in a
response on its way to one. -/
inductive Holds (c : Console ι) (t : String) (u : MeResponse) : Prop
  | storage (h : c.storage = ⟨some t, some u⟩)
  | tab (i : ι) (h : c.tabs i = some ⟨some t, some u⟩)
  | response (x : Fetch ι) (hx : x ∈ c.fetches)
      (hpurpose : x.purpose = .signIn) (resp : Response)
      (hresp : x.response = some resp) (hbody : resp.body = .login t u)

structure Sound (c : Console ι) : Prop where
  storage : c.storage.IsPair
  tabs : ∀ i k, c.tabs i = some k → k.IsPair
  signIns : ∀ x ∈ c.fetches, x.purpose = .signIn →
    Goes x.request "POST" loginPath

theorem sound_empty : ({} : Console ι).Sound where
  storage := .inl rfl
  tabs := by
    intro i k hk
    cases hk
  signIns := by
    intro x hx
    cases hx

theorem not_holds_empty (t : String) (u : MeResponse) :
    ¬({} : Console ι).Holds t u := by
  intro h
  cases h with
  | storage h => cases h
  | tab i h => cases h
  | response x hx hpurpose resp hresp hbody => cases hx

variable [DecidableEq ι] {c : Console ι} {i : ι} {n : Nat} {x : Fetch ι}
variable {t : String} {u : MeResponse} {resp : Response}

/-- A store that is put in one tab. -/
theorem update_cases {f : ι → Option Kept} {k k' : Option Kept} {j : ι}
    (h : Function.update f i k j = k') : k = k' ∨ f j = k' := by
  by_cases hj : j = i
  · subst hj
    rw [Function.update_self] at h
    exact .inl h
  · rw [Function.update_of_ne hj] at h
    exact .inr h

theorem Sound.update_tabs (h : c.Sound) {k : Option Kept}
    (hk : ∀ kept, k = some kept → kept.IsPair) (j : ι) (kept : Kept)
    (hj : Function.update c.tabs i k j = some kept) : kept.IsPair := by
  rcases update_cases hj with hj | hj
  · exact hk kept hj
  · exact h.tabs j kept hj

theorem Sound.load (h : c.Sound) : (c.load i).Sound where
  storage := h.storage
  tabs := by
    refine h.update_tabs ?_
    intro kept hkept
    cases hkept
    exact h.storage
  signIns := fun y hy => h.signIns y (List.mem_of_mem_filter hy)

theorem Sound.close (h : c.Sound) : (c.close i).Sound where
  storage := h.storage
  tabs := by
    refine h.update_tabs ?_
    intro kept hkept
    cases hkept
  signIns := fun y hy => h.signIns y (List.mem_of_mem_filter hy)

omit [DecidableEq ι] in
theorem Sound.drop (h : c.Sound) : (c.drop n).Sound where
  storage := h.storage
  tabs := h.tabs
  signIns := fun y hy => h.signIns y (List.mem_of_mem_eraseIdx hy)

theorem Sound.setAuth (h : c.Sound) : (c.setAuth i t u).Sound where
  storage := .inr ⟨t, u, rfl⟩
  tabs := by
    refine h.update_tabs ?_
    intro kept hkept
    cases hkept
    exact .inr ⟨t, u, rfl⟩
  signIns := h.signIns

theorem Sound.logout (h : c.Sound) : (c.logout i).Sound where
  storage := .inl rfl
  tabs := by
    refine h.update_tabs ?_
    intro kept hkept
    cases hkept
    exact .inl rfl
  signIns := h.signIns

omit [DecidableEq ι] in
theorem Sound.unauthorized (h : c.Sound) : c.unauthorized.Sound where
  storage := .inl rfl
  tabs := h.tabs
  signIns := h.signIns

omit [DecidableEq ι] in
theorem Sound.start (h : c.Sound) (hx : c.MayStart x) :
    ({ c with fetches := c.fetches ++ [x] } : Console ι).Sound where
  storage := h.storage
  tabs := h.tabs
  signIns := by
    intro y hy hpurpose
    rcases List.mem_append.mp hy with hy | hy
    · exact h.signIns y hy hpurpose
    · rw [List.mem_singleton] at hy
      subst hy
      obtain ⟨_, tab, _, hsends⟩ := hx
      rw [hpurpose] at hsends
      exact hsends.1

omit [DecidableEq ι] in
theorem Sound.answered (h : c.Sound) (hx : x ∈ c.fetches) :
    (c.answered n x resp).Sound where
  storage := h.storage
  tabs := h.tabs
  signIns := by
    intro y hy hpurpose
    rcases List.mem_or_eq_of_mem_set hy with hy | rfl
    · exact h.signIns y hy hpurpose
    · exact h.signIns x hx hpurpose

theorem Sound.failed (h : c.Sound) : (c.failed x).Sound := by
  unfold Console.failed
  split
  · exact h.logout
  · exact h
  · exact h

theorem Sound.arrived (h : c.Sound) : (c.arrived x resp).Sound := by
  unfold Console.arrived
  split
  · split
    · split
      · exact h.setAuth
      · exact h
    · exact h
  · exact h.logout
  · split
    · exact h.unauthorized
    · exact h

/-! ## Where a pair comes from -/

theorem Holds.of_load (h : (c.load i).Holds t u) : c.Holds t u := by
  cases h with
  | storage h => exact .storage h
  | tab j h =>
      rcases update_cases h with h | h
      · exact .storage (Option.some.inj h)
      · exact .tab j h
  | response x hx hpurpose resp hresp hbody =>
      exact .response x (List.mem_of_mem_filter hx) hpurpose resp hresp hbody

theorem Holds.of_close (h : (c.close i).Holds t u) : c.Holds t u := by
  cases h with
  | storage h => exact .storage h
  | tab j h =>
      rcases update_cases h with h | h
      · cases h
      · exact .tab j h
  | response x hx hpurpose resp hresp hbody =>
      exact .response x (List.mem_of_mem_filter hx) hpurpose resp hresp hbody

omit [DecidableEq ι] in
theorem Holds.of_drop (h : (c.drop n).Holds t u) : c.Holds t u := by
  cases h with
  | storage h => exact .storage h
  | tab j h => exact .tab j h
  | response x hx hpurpose resp hresp hbody =>
      exact .response x (List.mem_of_mem_eraseIdx hx) hpurpose resp hresp hbody

theorem Holds.of_logout (h : (c.logout i).Holds t u) : c.Holds t u := by
  cases h with
  | storage h => cases h
  | tab j h =>
      rcases update_cases h with h | h
      · cases h
      · exact .tab j h
  | response x hx hpurpose resp hresp hbody =>
      exact .response x hx hpurpose resp hresp hbody

omit [DecidableEq ι] in
theorem Holds.of_unauthorized (h : c.unauthorized.Holds t u) :
    c.Holds t u := by
  cases h with
  | storage h => cases h
  | tab j h => exact .tab j h
  | response x hx hpurpose resp hresp hbody =>
      exact .response x hx hpurpose resp hresp hbody

theorem Holds.of_setAuth {t' : String} {u' : MeResponse}
    (h : (c.setAuth i t' u').Holds t u) :
    (t' = t ∧ u' = u) ∨ c.Holds t u := by
  cases h with
  | storage h =>
      cases h
      exact .inl ⟨rfl, rfl⟩
  | tab j h =>
      rcases update_cases h with h | h
      · cases h
        exact .inl ⟨rfl, rfl⟩
      · exact .inr (.tab j h)
  | response x hx hpurpose resp hresp hbody =>
      exact .inr (.response x hx hpurpose resp hresp hbody)

omit [DecidableEq ι] in
theorem Holds.of_start (hx : x.response = none)
    (h : ({ c with fetches := c.fetches ++ [x] } : Console ι).Holds t u) :
    c.Holds t u := by
  cases h with
  | storage h => exact .storage h
  | tab j h => exact .tab j h
  | response y hy hpurpose resp hresp hbody =>
      rcases List.mem_append.mp hy with hy | hy
      · exact .response y hy hpurpose resp hresp hbody
      · rw [List.mem_singleton] at hy
        rw [hy, hx] at hresp
        cases hresp

theorem Holds.of_failed (h : (c.failed x).Holds t u) : c.Holds t u := by
  unfold Console.failed at h
  split at h
  · exact h.of_logout
  · exact h
  · exact h

/-- A response that arrives leaves no other pair than was there with it. -/
theorem Holds.of_arrived (hx : c.fetches[n]? = some x)
    (hresp : x.response = some resp)
    (h : ((c.drop n).arrived x resp).Holds t u) : c.Holds t u := by
  unfold Console.arrived at h
  split at h
  · next hpurpose =>
      split at h
      · split at h
        · next t' u' hbody =>
            rcases h.of_setAuth with ⟨rfl, rfl⟩ | h
            · exact .response x (List.mem_of_getElem? hx) hpurpose resp hresp
                hbody
            · exact h.of_drop
        · exact h.of_drop
      · exact h.of_drop
  · exact h.of_logout.of_drop
  · split at h
    · exact h.of_unauthorized.of_drop
    · exact h.of_drop

omit [DecidableEq ι] in
/-- Only an answer to a sign-in brings a new one. -/
theorem Holds.of_answered (h : (c.answered n x resp).Holds t u) :
    c.Holds t u ∨ (x.purpose = .signIn ∧ resp.body = .login t u) := by
  cases h with
  | storage h => exact .inl (.storage h)
  | tab j h => exact .inl (.tab j h)
  | response y hy hpurpose resp' hresp hbody =>
      rcases List.mem_or_eq_of_mem_set hy with hy | rfl
      · exact .inl (.response y hy hpurpose resp' hresp hbody)
      · cases hresp
        exact .inr ⟨hpurpose, hbody⟩

end Console

/-! ## Runs -/

section
variable {ι : Type} [DecidableEq ι] [Bcrypt] [ClientGo] [Apimachinery]
variable {origins : String} {st st' : ServerState × Console ι}
variable {a : ConsoleAct ι} {acts later : List (ConsoleAct ι)}
variable {t : String} {u : MeResponse}

/-- The token a sign-in returned, in this browser or elsewhere. -/
def ConsoleAct.returned (a : ConsoleAct ι) : Option String :=
  a.occurrence.bind returnedToken

theorem sound_step (hs : st.2.Sound) (h : ConsoleStep origins st a st') :
    st'.2.Sound := by
  cases a with
  | load i =>
      obtain rfl := h
      exact hs.load
  | close i =>
      obtain rfl := h
      exact hs.close
  | leave i =>
      obtain ⟨_, _, _, rfl⟩ := h
      exact hs.logout
  | start x =>
      obtain ⟨hx, rfl⟩ := h
      exact hs.start hx
  | served n req resp =>
      obtain ⟨x, hx, _, _, _, hst'⟩ := h
      rw [hst']
      exact hs.answered (List.mem_of_getElem? hx)
  | lost n =>
      obtain ⟨x, _, rfl⟩ := h
      exact hs.drop.failed
  | arrives n =>
      obtain ⟨x, resp, _, _, rfl⟩ := h
      exact hs.drop.arrived
  | elsewhere o =>
      obtain ⟨_, hst'⟩ := h
      rw [hst']
      exact hs

/-- A pair was there before the step, or the step is the sign-in that opened the
session. -/
theorem holds_step (hs : st.2.Sound) (h : ConsoleStep origins st a st')
    (hpair : st'.2.Holds t u) :
    st.2.Holds t u ∨ (a.returned = some t ∧ IsSession st'.1 t u) := by
  cases a with
  | load i =>
      obtain rfl := h
      exact .inl hpair.of_load
  | close i =>
      obtain rfl := h
      exact .inl hpair.of_close
  | leave i =>
      obtain ⟨_, _, _, rfl⟩ := h
      exact .inl hpair.of_logout
  | start x =>
      obtain ⟨hx, rfl⟩ := h
      exact .inl (hpair.of_start hx.1)
  | served n req resp =>
      obtain ⟨x, hx, _, rfl, ⟨tr, hserved⟩, hst'⟩ := h
      rw [hst'] at hpair
      rcases hpair.of_answered with hpair | ⟨hpurpose, hbody⟩
      · exact .inl hpair
      · have hg := hs.signIns x (List.mem_of_getElem? hx) hpurpose
        rcases serve_answers hg hserved with
          ⟨body, t', u', hreq, hbody', hsession⟩ | hfails
        · rw [hbody] at hbody'
          cases hbody'
          exact .inr ⟨returnedToken_login hg ⟨body, hreq⟩ hbody, hsession⟩
        · exact absurd hbody (hfails.2 t u)
  | lost n =>
      obtain ⟨x, _, rfl⟩ := h
      exact .inl hpair.of_failed.of_drop
  | arrives n =>
      obtain ⟨x, resp, hx, hresp, rfl⟩ := h
      exact .inl (hpair.of_arrived hx hresp)
  | elsewhere o =>
      obtain ⟨_, hst'⟩ := h
      rw [hst'] at hpair
      exact .inl hpair

theorem server_step (h : ConsoleStep origins st a st') :
    st'.1 = st.1 ∨ ∃ o, a.occurrence = some o ∧
      Occurs origins st.1 o st'.1 := by
  cases a with
  | load i =>
      obtain rfl := h
      exact .inl rfl
  | close i =>
      obtain rfl := h
      exact .inl rfl
  | leave i =>
      obtain ⟨_, _, _, rfl⟩ := h
      exact .inl rfl
  | start x =>
      obtain ⟨_, rfl⟩ := h
      exact .inl rfl
  | served n req resp =>
      obtain ⟨_, _, _, _, hserved, _⟩ := h
      exact .inr ⟨_, rfl, hserved⟩
  | lost n =>
      obtain ⟨_, _, rfl⟩ := h
      exact .inl rfl
  | arrives n =>
      obtain ⟨_, _, _, _, rfl⟩ := h
      exact .inl rfl
  | elsewhere o =>
      obtain ⟨ho, _⟩ := h
      exact .inr ⟨o, rfl, ho⟩

theorem agrees_step (ha : Agrees st.1 t u) (h : ConsoleStep origins st a st')
    (hfresh : a.returned ≠ some t) : Agrees st'.1 t u := by
  rcases server_step h with hsame | ⟨o, ho, h⟩
  · rw [hsame]
    exact ha
  · refine ha.occurs h ?_
    rw [ConsoleAct.returned, ho] at hfresh
    exact hfresh

/-- The tokens the browser has were returned, each with its user. -/
structure Known (acts : List (ConsoleAct ι)) (st : ServerState × Console ι) :
    Prop where
  sound : st.2.Sound
  returned : ∀ t u, st.2.Holds t u → t ∈ acts.filterMap ConsoleAct.returned
  agrees : ∀ t u, st.2.Holds t u → Agrees st.1 t u

theorem Known.step (hk : Known acts st) (h : ConsoleStep origins st a st')
    (hfresh : (acts ++ [a]).filterMap ConsoleAct.returned |>.Nodup) :
    Known (acts ++ [a]) st' where
  sound := sound_step hk.sound h
  returned := by
    intro t u hpair
    rw [List.filterMap_append, List.mem_append]
    rcases holds_step hk.sound h hpair with hpair | ⟨hreturned, _⟩
    · exact .inl (hk.returned t u hpair)
    · refine .inr ?_
      rw [List.filterMap_cons_some hreturned]
      exact .head _
  agrees := by
    intro t u hpair
    rcases holds_step hk.sound h hpair with hpair | ⟨_, hsession⟩
    · refine agrees_step (hk.agrees t u hpair) h ?_
      intro hreturned
      rw [List.filterMap_append, List.filterMap_cons_some hreturned] at hfresh
      have hapart := (List.nodup_append.mp hfresh).2.2
      exact hapart t (hk.returned t u hpair) t (.head _) rfl
    · exact hsession.agrees

theorem known_run {s₀ : ServerState}
    (hrun : Run (ConsoleStep origins) (s₀, {}) acts st)
    (hfresh : (acts.filterMap ConsoleAct.returned).Nodup) :
    Known acts st := by
  refine Run.reverse_induction (P := fun acts st =>
    (acts.filterMap ConsoleAct.returned).Nodup → Known acts st) ?_ ?_ hrun
    hfresh
  · intro _
    exact ⟨Console.sound_empty, fun t u h => absurd h
      (Console.not_holds_empty t u), fun t u h => absurd h
      (Console.not_holds_empty t u)⟩
  · intro acts m a st' _ ih hstep hfresh
    have hbefore := hfresh
    rw [List.filterMap_append] at hbefore
    exact (ih (List.nodup_append.mp hbefore).1).step hstep hfresh

/-- What a sign-in told stays true until the session ends. -/
theorem agrees_run (hlater : Run (ConsoleStep origins) st later st')
    (ha : Agrees st.1 t u) (hfresh : t ∉ later.filterMap ConsoleAct.returned) :
    Agrees st'.1 t u := by
  induction hlater with
  | nil => exact ha
  | cons hstep _ ih =>
      rw [List.mem_filterMap] at hfresh
      refine ih (agrees_step ha hstep ?_) ?_
      · intro hreturned
        exact hfresh ⟨_, .head _, hreturned⟩
      · intro hmem
        obtain ⟨b, hb, hreturned⟩ := List.mem_filterMap.mp hmem
        exact hfresh ⟨b, .tail _ hb, hreturned⟩

end

/-! ## Who acts -/

theorem getSession_some {s : ServerState} {token username role : String}
    (h : s.store.getSession s.now token = some (username, role)) :
    ∃ expiresAt, s.accounts.sessions.lookup token =
      some ⟨username, role, expiresAt⟩ := by
  unfold MemoryStore.getSession at h
  split at h
  · cases h
  · next sess hsess =>
      split at h
      · cases h
      · cases h
        exact ⟨_, hsess⟩

theorem extractBearerToken_of {r : Request} {token : Option String}
    (h : r.authorization = authorizationOf token) :
    extractBearerToken r = token.getD "" := by
  unfold extractBearerToken
  rw [h]
  cases token with
  | none => rfl
  | some t =>
      unfold authorizationOf
      dsimp only
      split
      · next ht =>
          subst ht
          rfl
      · next ht =>
          have hpos : t.toList ≠ [] := fun h =>
            ht (String.toList_eq_nil_iff.mp h)
          rw [String.toList_append, if_pos]
          · show String.ofList t.toList = t
            exact String.ofList_toList
          · refine ⟨?_, rfl⟩
            rw [List.length_append]
            have := List.length_pos_iff.mpr hpos
            show 7 < 7 + t.toList.length
            omega

section
variable {ι : Type} [DecidableEq ι] [Bcrypt] [ClientGo] [Apimachinery]
variable {origins : String} {st st' : ServerState × Console ι}
variable {acts later : List (ConsoleAct ι)} {x : Fetch ι}
variable {username role : String}

/-- A request carries the token of the storage, and is taken for the user that
this token has wherever the browser holds it. -/
theorem Known.holder (hknown : Known acts st) (hx : st.2.MayStart x)
    (hask : x.purpose = .ask) (hlater : Run (ConsoleStep origins) st later st')
    (hfresh : ((acts ++ later).filterMap ConsoleAct.returned).Nodup)
    (hactor : actor st'.1 x.request = some (username, role)) :
    ∃ token, st.2.storage.token = some token ∧
      ∀ u, st.2.Holds token u → u = ⟨username, role⟩ := by
  rw [List.filterMap_append] at hfresh
  obtain ⟨_, _, hapart⟩ := List.nodup_append.mp hfresh
  have hsends : x.request.authorization =
      authorizationOf st.2.storage.token := by
    obtain ⟨_, _, _, hsends⟩ := hx
    rw [hask] at hsends
    exact hsends
  unfold actor at hactor
  rw [extractBearerToken_of hsends] at hactor
  split at hactor
  · cases hactor
  · next hsome =>
      cases ht : st.2.storage.token with
      | none =>
          rw [ht] at hsome
          exact absurd rfl hsome
      | some token =>
          rw [ht] at hactor
          obtain ⟨expiresAt, hsess⟩ := getSession_some hactor
          refine ⟨token, rfl, ?_⟩
          intro u hpair
          have hagrees := agrees_run hlater (hknown.agrees token u hpair)
            fun hmem => hapart token (hknown.returned token u hpair) token
              hmem rfl
          obtain ⟨hname, hrole⟩ := hagrees _ hsess
          cases u
          cases hname
          cases hrole
          rfl

/-- Whatever happens, and in whatever order: if the server takes a request of a
tab as some user's, then that is the user the storage named when the tab sent
it, and it is the one the tab showed if the tab had the token of the storage. -/
theorem shown_is_acting {s₀ : ServerState}
    (hrun : Run (ConsoleStep origins) (s₀, {}) acts st)
    (hx : st.2.MayStart x) (hask : x.purpose = .ask)
    (hlater : Run (ConsoleStep origins) st later st')
    (hfresh : ((acts ++ later).filterMap ConsoleAct.returned).Nodup)
    (hactor : actor st'.1 x.request = some (username, role)) :
    st.2.storage.user = some ⟨username, role⟩ ∧
      ∀ tab, st.2.tabs x.tab = some tab →
        tab.token = st.2.storage.token → tab.user = some ⟨username, role⟩ := by
  have hbefore := hfresh
  rw [List.filterMap_append] at hbefore
  have hknown := known_run hrun (List.nodup_append.mp hbefore).1
  obtain ⟨token, ht, huser⟩ := hknown.holder hx hask hlater hfresh hactor
  constructor
  · obtain ⟨u, hpair⟩ := hknown.sound.storage.of_token ht
    rw [hpair, huser u (.storage hpair)]
  · intro tab htab hsame
    rw [ht] at hsame
    obtain ⟨u, rfl⟩ := (hknown.sound.tabs _ _ htab).of_token hsame
    rw [huser u (.tab _ htab)]

end

/-! A server is started, the administrator signs in, and asks for the audit
log. -/

/-- What `request` sends with this token. -/
def askAudit (token : String) : Fetch Nat where
  tab := 1
  purpose := .ask
  request :=
    { method := "GET"
      url := ⟨"/api/v1/audit", "/api/v1/audit", by decide +kernel⟩
      authorization := "Bearer " ++ token }

def adminKept : Kept := ⟨some adminToken, some ⟨"admin", "admin"⟩⟩

theorem admin_signs_in :
    letI := labelSelectors
    letI := plainBcrypt
    letI := anyHost
    ∃ (s₁ : ServerState) (st : ServerState × Console Nat)
      (tr : List ServerEvent) (acts : List (ConsoleAct Nat)),
      Completes ServerStep (bootstrap "secret" "") newServer tr (.ok "secret")
        s₁ ∧
      Run (ConsoleStep "*") (s₁, {}) acts st ∧
      (acts.filterMap ConsoleAct.returned).Nodup ∧
      st.2.storage = adminKept ∧ st.2.tabs 1 = some adminKept ∧
      actor st.1 (askAudit adminToken).request = some ("admin", "admin") := by
  have hend : (startTrace newServer).2.1 = .ok "secret" ∧
      (serveTrace signIn (startTrace newServer).2.2).2.1.status = 200 ∧
      (serveTrace signIn (startTrace newServer).2.2).2.1.body =
        .login adminToken ⟨"admin", "admin"⟩ ∧
      actor (serveTrace signIn (startTrace newServer).2.2).2.2
        (askAudit adminToken).request = some ("admin", "admin") := by
    decide +kernel
  have hgoes : Goes signIn "POST" loginPath := by decide +kernel
  have hstart := startTrace_eq newServer
  have hserve := serveTrace_eq signIn (startTrace newServer).2.2
  -- nothing is to be computed from here on
  generalize startTrace newServer = start at *
  generalize serveTrace signIn start.2.2 = r at *
  obtain ⟨hok, hstatus, hbody, hactor⟩ := hend
  let := labelSelectors
  let := plainBcrypt
  let := anyHost
  have hboot := completes_of_exec hstart
  rw [hok] at hboot
  let asked : Fetch Nat := ⟨1, .signIn, signIn, none⟩
  let waiting : Console Nat := { Console.load 1 {} with fetches := [asked] }
  let told : Console Nat := waiting.answered 0 asked r.2.1
  let signedIn : Console Nat :=
    (told.drop 0).setAuth 1 adminToken ⟨"admin", "admin"⟩
  have hasked : (Console.load 1 {} : Console Nat).MayStart asked :=
    ⟨rfl, {}, rfl, hgoes, rfl⟩
  have harrived : (told.drop 0).arrived
      { asked with response := some r.2.1 } r.2.1 = signedIn := by
    unfold Console.arrived
    rw [hbody]
    exact if_pos (by rw [hstatus]; decide)
  let acts : List (ConsoleAct Nat) :=
    [.load 1, .start asked, .served 0 signIn r.2.1, .arrives 0]
  have hrun : Run (ConsoleStep "*") (start.2.2, {}) acts (r.2.2, signedIn) :=
    .cons (m := (start.2.2, Console.load 1 {})) rfl <|
    .cons (m := (start.2.2, waiting)) ⟨hasked, rfl⟩ <|
    .cons (m := (r.2.2, told))
      ⟨asked, rfl, rfl, rfl, ⟨_, completes_of_exec hserve⟩, rfl⟩ <|
    .cons ⟨_, _, rfl, rfl, by rw [harrived]⟩ .nil
  have hfresh : (acts.filterMap ConsoleAct.returned).Nodup := by
    cases h : returnedToken (.served signIn r.2.1) with
    | none =>
        simp [acts, List.filterMap_cons, ConsoleAct.returned,
          ConsoleAct.occurrence, h]
    | some token =>
        simp [acts, List.filterMap_cons, ConsoleAct.returned,
          ConsoleAct.occurrence, h]
  exact ⟨_, _, _, acts, hboot, hrun, hfresh, rfl, rfl, hactor⟩

theorem askAudit_may {c : Console Nat} (hstorage : c.storage = adminKept)
    (htab : c.tabs 1 = some adminKept) : c.MayStart (askAudit adminToken) := by
  refine ⟨rfl, adminKept, htab, ?_⟩
  show _ = authorizationOf c.storage.token
  rw [hstorage]
  rfl

theorem shown_is_acting_sample :
    letI := labelSelectors
    letI := plainBcrypt
    letI := anyHost
    ∃ (s₁ : ServerState) (st : ServerState × Console Nat)
      (acts : List (ConsoleAct Nat)),
      Run (ConsoleStep "*") (s₁, {}) acts st ∧
      actor st.1 (askAudit adminToken).request = some ("admin", "admin") ∧
      st.2.storage.user = some ⟨"admin", "admin"⟩ ∧
      ∀ tab, st.2.tabs 1 = some tab → tab.token = st.2.storage.token →
        tab.user = some ⟨"admin", "admin"⟩ := by
  let := labelSelectors
  let := plainBcrypt
  let := anyHost
  obtain ⟨s₁, st, tr, acts, _, hrun, hfresh, hstorage, htab, hactor⟩ :=
    admin_signs_in
  rw [← List.append_nil acts] at hfresh
  obtain ⟨huser, hshown⟩ := shown_is_acting hrun (askAudit_may hstorage htab)
    rfl .nil hfresh hactor
  exact ⟨s₁, st, acts, hrun, hactor, huser, hshown⟩

end Vexil.Web
