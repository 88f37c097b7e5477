import Vexil.Lib.Lockstep
import Vexil.Proofs.AccountStores
import Vexil.Proofs.AuditStores
import Vexil.Server.Routes

/-!
# What no handler looks at

The two stores answer a call alike but for the identifiers they make up, for
times, for the order of a listing, and for what JSON makes of a diff. No handler
looks at any of these: it passes listings on as they are, and of the user that
it finds at sign-in it uses the name, the hash and the role. So the server is in
lockstep with itself along replies that are alike in this sense
(`lockstep_serve`), and its responses are.

Most handlers make no call whose replies can be alike and yet differ, and need
nothing more than that (`lockstep_of_plain`).
-/

namespace Vexil.Server

open Vexil.Lib Vexil.Kube PostgresStore

/-! ## Replies that are alike -/

def SameAccountsListed (us us' : List User) : Prop :=
  (us.map User.account).Perm (us'.map User.account)

/-- Listings that are alike in the sense of `R`. -/
def AlikeLists {α : Type} (R : List α → List α → Prop) :
    Except String (List α) → Except String (List α) → Prop
  | .ok l, .ok l' => R l l'
  | .error err, .error err' => err = err'
  | _, _ => False

theorem AlikeLists.symm {α : Type} {R : List α → List α → Prop}
    (hR : ∀ l l', R l l' → R l' l) {r r' : Except String (List α)}
    (h : AlikeLists R r r') : AlikeLists R r' r := by
  cases r with
  | ok l =>
      cases r' with
      | ok l' => exact hR l l' h
      | error err' => exact h.elim
  | error err =>
      cases r' with
      | ok l' => exact h.elim
      | error err' => exact Eq.symm h

variable [Postgres]

/-- The same, or the one as the database gives back the other. -/
def AuditEvent.Alike (e e' : AuditEvent) : Prop :=
  e = e' ∨ GivenBack e e' ∨ GivenBack e' e

def SameEntries (es es' : List AuditEvent) : Prop :=
  Relation.Comp List.Perm (List.Forall₂ AuditEvent.Alike) es es'

/-- The audit log is asked for as the handler does, without a time and without
a limit. -/
def StoreCall.Alike : (c : StoreCall) → c.Reply → c.Reply → Prop
  | .listAuditEvents filter, r, r' => filter.since = none → filter.limit ≤ 0 →
      AlikeLists SameEntries r r'
  | .getUserByUsername _, r, r' => r.map User.account = r'.map User.account
  | .listUsers, r, r' => AlikeLists SameAccountsListed r r'
  | .recordAudit _, r, r' | .updatePassword _ _, r, r' | .createUser _, r, r'
  | .deleteUser _, r, r' | .updateUserRole _ _, r, r'
  | .createSession _ _ _ _, r, r' | .deleteSession _, r, r' => r = r'
  | .getSession _, r, r' => r = r'

def ServerCall.Alike : (c : ServerCall) → c.Reply → c.Reply → Prop
  | .store c, r, r' => c.Alike r r'
  | .clusters _, r, r' | .kube _ _, r, r' | .now, r, r' | .randRead _, r, r'
  | .generateFromPassword _, r, r' => r = r'

theorem AuditEvent.Alike.symm {e e' : AuditEvent} (h : e.Alike e') :
    e'.Alike e := by
  rcases h with heq | hback | hback
  · exact .inl heq.symm
  · exact .inr (.inr hback)
  · exact .inr (.inl hback)

theorem SameEntries.symm {es es' : List AuditEvent} (h : SameEntries es es') :
    SameEntries es' es := by
  rw [SameEntries, ← List.forall₂_comp_perm_eq_perm_comp_forall₂] at h
  obtain ⟨l, halike, hperm⟩ := h
  exact ⟨l, hperm.symm, (halike.imp fun _ _ h => h.symm).flip⟩

theorem SameEntries.refl (es : List AuditEvent) : SameEntries es es :=
  ⟨es, .refl es, List.forall₂_same.mpr fun _ _ => .inl rfl⟩

theorem ServerCall.Alike.symm {c : ServerCall} {r r' : c.Reply}
    (h : c.Alike r r') : c.Alike r' r := by
  cases c with
  | store c =>
      cases c with
      | listAuditEvents filter =>
          intro hsince hlimit
          exact AlikeLists.symm (fun _ _ => .symm) (h hsince hlimit)
      | listUsers => exact AlikeLists.symm (fun _ _ => List.Perm.symm) h
      | _ => exact Eq.symm h
  | _ => exact Eq.symm h

theorem Label.Alike.symm {ι : Type} {l l' : ServerLabel ι}
    (h : Label.Alike ServerCall.Alike l l') :
    Label.Alike ServerCall.Alike l' l := by
  cases h with
  | own he =>
      cases he with
      | mk hr => exact .own (.mk (ServerCall.Alike.symm hr))
  | other => exact .other

/-! ## Responses that are alike -/

def ResponseBody.Alike : ResponseBody → ResponseBody → Prop
  | .users us, .users us' => SameAccountsListed us us'
  | .auditEvents es, .auditEvents es' => SameEntries es es'
  | b, b' => b = b'

structure Response.Alike (r r' : Response) : Prop where
  status : r.status = r'.status
  headers : r.headers = r'.headers
  body : r.body.Alike r'.body

theorem ResponseBody.Alike.refl (b : ResponseBody) : b.Alike b := by
  cases b with
  | users us => exact List.Perm.refl _
  | auditEvents es => exact SameEntries.refl es
  | _ => rfl

theorem Response.Alike.refl (r : Response) : r.Alike r :=
  ⟨rfl, rfl, .refl r.body⟩

/-! ## The handlers -/

abbrev Lockstep (p q : ServerProg Response) : Prop :=
  p.Lockstep ServerCall.Alike Response.Alike q

/-- No call of the program has replies that are alike and yet different. -/
abbrev Plain {α : Type} (p : ServerProg α) : Prop :=
  p.Calls (Prog.Exact ServerCall.Alike)

theorem lockstep_of_plain {p : ServerProg Response} (h : Plain p) :
    Lockstep p p := Prog.lockstep_self Response.Alike.refl h

/-- A call whose replies are alike only when equal. -/
theorem plain_call {α : Type} {c : ServerCall} {k : c.Reply → ServerProg α}
    (hc : Prog.Exact ServerCall.Alike c) (hk : ∀ r, Plain (k r)) :
    Plain (.call c k) := Prog.calls_call.mpr ⟨hc, hk⟩

theorem plain_onCluster {α : Type} (client : Endpoint) (p : KubeProg α) :
    Plain (onCluster client p) := by
  induction p with
  | ret a => trivial
  | call c k ih => exact plain_call (fun _ _ h => h) ih

theorem plain_recordAudit {α : Type} {event : AuditEvent} {p : ServerProg α}
    (hp : Plain p) : Plain (recordAudit event p) :=
  plain_call (fun _ _ h => h) fun _ => hp

theorem plain_withClient {id notFound : String}
    {k : Endpoint → ServerProg Response} (hk : ∀ client, Plain (k client)) :
    Plain (withClient id notFound k) := by
  refine plain_call (fun _ _ h => h) fun r => ?_
  cases r with
  | error err => trivial
  | ok client => exact hk client

section
variable {req : Request} {ctx : UserContext} {pathValue : String → String}

namespace AuthHandler

/-- Of a user, `Login` uses the name, the hash and the role. -/
theorem lockstep_openSession {user user' : User}
    (h : user.account = user'.account) :
    Lockstep (openSession user) (openSession user') := by
  obtain ⟨id, username, passwordHash, role, createdAt⟩ := user
  obtain ⟨id', username', passwordHash', role', createdAt'⟩ := user'
  obtain ⟨rfl, rfl, rfl⟩ := Account.mk.inj h
  refine .call fun r r' halike => ?_
  obtain rfl : r = r' := halike
  cases r with
  | error err => exact .ret (.refl _)
  | ok bytes =>
      refine .call fun now now' halike => ?_
      obtain rfl : now = now' := halike
      refine .call fun done done' halike => ?_
      obtain rfl : done = done' := halike
      cases done with
      | error err => exact .ret (.refl _)
      | ok u => exact .ret (.refl _)

theorem lockstep_login [Bcrypt] :
    Lockstep (login req ctx pathValue) (login req ctx pathValue) := by
  unfold login
  split
  · exact .ret (.refl _)
  · split
    · exact .ret (.refl _)
    · refine .call fun r r' halike => ?_
      have hmap : r.map User.account = r'.map User.account := halike
      cases r with
      | error err =>
          cases r' with
          | error err' => exact .ret (.refl _)
          | ok user' => cases hmap
      | ok user =>
          cases r' with
          | error err' => cases hmap
          | ok user' =>
              have haccount : user.account = user'.account :=
                Except.ok.inj hmap
              have hhash : user.passwordHash = user'.passwordHash :=
                (Account.mk.inj haccount).2.1
              dsimp only
              rw [hhash]
              split
              · exact lockstep_openSession haccount
              · exact .ret (.refl _)

theorem plain_logout : Plain (logout req ctx pathValue) := by
  unfold logout
  dsimp only
  split
  · trivial
  · exact plain_call (fun _ _ h => h) fun _ => trivial

theorem plain_me : Plain (me req ctx pathValue) := by
  unfold me
  dsimp only
  split
  · trivial
  · refine plain_call (fun _ _ h => h) fun r => ?_
    cases r with
    | none => trivial
    | some sess => trivial

theorem lockstep_listUsers :
    Lockstep (listUsers req ctx pathValue) (listUsers req ctx pathValue) := by
  refine .call fun r r' halike => ?_
  cases r with
  | error err =>
      cases r' with
      | error err' => exact .ret (.refl _)
      | ok users' => exact False.elim halike
  | ok users =>
      cases r' with
      | error err' => exact False.elim halike
      | ok users' => exact .ret ⟨rfl, rfl, halike⟩

theorem plain_createUser [Bcrypt] : Plain (createUser req ctx pathValue) := by
  unfold createUser
  split
  · trivial
  · split
    · trivial
    · split
      · trivial
      · split
        · trivial
        · refine plain_call (fun _ _ h => h) fun hash? => ?_
          cases hash? with
          | error err => trivial
          | ok hash =>
              refine plain_call (fun _ _ h => h) fun done => ?_
              cases done with
              | error err => trivial
              | ok u => trivial

theorem plain_changeRole {target role : String} {k : ServerProg Response}
    (hk : Plain k) : Plain (changeRole target role k) := by
  unfold changeRole
  split
  · exact hk
  · split
    · trivial
    · refine plain_call (fun _ _ h => h) fun done => ?_
      cases done with
      | error err => trivial
      | ok u => exact hk

theorem plain_changePassword [Bcrypt] {target password : String}
    {k : ServerProg Response} (hk : Plain k) :
    Plain (changePassword target password k) := by
  unfold changePassword
  split
  · exact hk
  · refine plain_call (fun _ _ h => h) fun hash? => ?_
    cases hash? with
    | error err => trivial
    | ok hash =>
        refine plain_call (fun _ _ h => h) fun done => ?_
        cases done with
        | error err => trivial
        | ok u => exact hk

theorem plain_updateUser [Bcrypt] : Plain (updateUser req ctx pathValue) := by
  unfold updateUser
  dsimp only
  split
  · trivial
  · split
    · trivial
    · split
      · trivial
      · exact plain_changeRole (plain_changePassword trivial)

theorem plain_deleteUser : Plain (deleteUser req ctx pathValue) := by
  unfold deleteUser
  dsimp only
  split
  · trivial
  · split
    · trivial
    · refine plain_call (fun _ _ h => h) fun done => ?_
      cases done with
      | error err => trivial
      | ok u => trivial

end AuthHandler

namespace FlagHandler

theorem plain_withFlag {k : Endpoint → FeatureFlag → ServerProg Response}
    (hk : ∀ client flag, Plain (k client flag)) :
    Plain (withFlag req pathValue k) := by
  unfold withFlag
  dsimp only
  split
  · trivial
  · refine plain_withClient fun client =>
      plain_call (fun _ _ h => h) fun r => ?_
    cases r with
    | error err => trivial
    | ok flag => exact hk client flag

theorem plain_writeFlag {verb action : String} {client : Endpoint}
    {flag : FeatureFlag} :
    Plain (writeFlag req pathValue verb action client flag) := by
  refine plain_call (fun _ _ h => h) fun r => ?_
  cases r with
  | error err => trivial
  | ok stored => exact plain_recordAudit trivial

theorem plain_update : Plain (update req ctx pathValue) := by
  refine plain_withFlag fun client flag => ?_
  split
  · trivial
  · exact plain_writeFlag

theorem plain_toggle : Plain (toggle req ctx pathValue) := by
  refine plain_withFlag fun client flag => ?_
  split
  · trivial
  · exact plain_writeFlag

theorem plain_delete : Plain (delete req ctx pathValue) := by
  refine plain_withFlag fun client flag =>
    plain_call (fun _ _ h => h) fun r => ?_
  cases r with
  | error err => trivial
  | ok u => exact plain_recordAudit trivial

theorem plain_create : Plain (create req ctx pathValue) := by
  unfold create
  split
  · trivial
  · split
    · trivial
    · refine plain_withClient fun client =>
      plain_call (fun _ _ h => h) fun r => ?_
      cases r with
      | error err => trivial
      | ok flag => exact plain_recordAudit trivial

theorem plain_list : Plain (list req ctx pathValue) := by
  have hloop : ∀ clusterID ns ids, Plain (listClusters clusterID ns ids) := by
    intro clusterID ns ids
    induction ids with
    | nil => trivial
    | cons cid rest ih =>
        rw [listClusters]
        split
        · exact ih
        · refine plain_call (fun _ _ h => h) fun r => ?_
          cases r with
          | error err => exact ih
          | ok client =>
              refine plain_call (fun _ _ h => h) fun r => ?_
              cases r with
              | error err => exact ih
              | ok items => exact ih.map
  exact plain_call (fun _ _ h => h) fun ids => (hloop _ _ ids).map

end FlagHandler

namespace ClusterHandler

theorem plain_register : Plain (register req ctx pathValue) := by
  unfold register
  split
  · trivial
  · split
    · trivial
    · refine plain_call (fun _ _ h => h) fun r => ?_
      cases r with
      | error err => trivial
      | ok u => exact plain_recordAudit trivial

theorem plain_get : Plain (get req ctx pathValue) := by
  refine plain_call (fun _ _ h => h) fun r => ?_
  cases r with
  | error err => trivial
  | ok info => trivial

theorem plain_remove : Plain (remove req ctx pathValue) := by
  refine plain_call (fun _ _ h => h) fun r => ?_
  cases r with
  | error err => trivial
  | ok u => exact plain_recordAudit trivial

end ClusterHandler

/-- The audit log is passed on as it is listed. -/
theorem lockstep_listAudit :
    Lockstep (listAudit req ctx pathValue) (listAudit req ctx pathValue) := by
  refine .call fun r r' halike => ?_
  have halike : AlikeLists SameEntries r r' := halike rfl le_rfl
  cases r with
  | error err =>
      cases r' with
      | error err' =>
          obtain rfl : err = err' := halike
          exact .ret (.refl _)
      | ok events' => exact False.elim halike
  | ok events =>
      cases r' with
      | error err' => exact False.elim halike
      | ok events' => exact .ret ⟨rfl, rfl, halike⟩

/-! ## Every request -/

theorem lockstep_requireRole {roles : List String} {next : Handler}
    (h : Lockstep (next req ctx pathValue) (next req ctx pathValue)) :
    Lockstep (requireRole roles next req ctx pathValue)
      (requireRole roles next req ctx pathValue) := by
  unfold requireRole
  split
  · exact h
  · exact .ret (.refl _)

variable [Bcrypt] [Apimachinery]

theorem lockstep_handler {rt : Route Handler} (hrt : rt ∈ routes) :
    Lockstep (rt.handler req ctx pathValue) (rt.handler req ctx pathValue) := by
  simp only [routes, List.mem_cons, List.not_mem_nil, or_false] at hrt
  rcases hrt with rfl | rfl | rfl | rfl | rfl | rfl | rfl | rfl | rfl | rfl |
    rfl | rfl | rfl | rfl | rfl | rfl | rfl | rfl | rfl | rfl | rfl | rfl <;>
    dsimp only
  · exact AuthHandler.lockstep_login
  · exact lockstep_of_plain AuthHandler.plain_logout
  · exact lockstep_of_plain AuthHandler.plain_me
  · exact AuthHandler.lockstep_listUsers
  · exact lockstep_requireRole (lockstep_of_plain AuthHandler.plain_createUser)
  · exact lockstep_of_plain AuthHandler.plain_updateUser
  · exact lockstep_requireRole (lockstep_of_plain AuthHandler.plain_deleteUser)
  · exact lockstep_of_plain FlagHandler.plain_list
  · exact lockstep_requireRole (lockstep_of_plain FlagHandler.plain_create)
  · exact lockstep_of_plain (FlagHandler.plain_withFlag fun _ _ => trivial)
  · exact lockstep_requireRole (lockstep_of_plain FlagHandler.plain_update)
  · exact lockstep_requireRole (lockstep_of_plain FlagHandler.plain_delete)
  · exact lockstep_requireRole (lockstep_of_plain FlagHandler.plain_toggle)
  · exact lockstep_of_plain (plain_call (fun _ _ h => h) fun _ => trivial)
  · exact lockstep_requireRole (lockstep_of_plain ClusterHandler.plain_register)
  · exact lockstep_of_plain ClusterHandler.plain_get
  · exact lockstep_requireRole (lockstep_of_plain ClusterHandler.plain_remove)
  · exact lockstep_requireRole (lockstep_of_plain
      (plain_withClient fun client => plain_onCluster client _))
  · exact lockstep_requireRole (lockstep_of_plain
      (plain_withClient fun client => plain_onCluster client _))
  · exact lockstep_requireRole (lockstep_of_plain
      (plain_withClient fun client => plain_onCluster client _))
  · exact lockstep_listAudit
  · exact .ret (.refl _)

theorem lockstep_mux : Lockstep (mux req ctx) (mux req ctx) := by
  unfold mux
  split
  · next hd values hserve =>
      obtain ⟨rt, hrt, rfl, _⟩ := serveMux_handler hserve
      exact lockstep_handler hrt
  · exact .ret (.refl _)
  · exact .ret (.refl _)
  · exact .ret (.refl _)
  · exact .ret (.refl _)

/-- Given replies that are alike, the server makes the same calls for a request
and answers it alike. -/
theorem lockstep_serve (origins : String) (req : Request) :
    Lockstep (serve origins req) (serve origins req) := by
  unfold serve cors
  dsimp only
  split
  · exact .ret (.refl _)
  · have hadd : ∀ r r' : Response, r.Alike r' →
        ({ r with headers := corsHeaders origins req.origin ++ r.headers } :
          Response).Alike
          { r' with headers := corsHeaders origins req.origin ++ r'.headers } :=
      fun r r' hr => ⟨hr.status, congrArg (_ ++ ·) hr.headers, hr.body⟩
    refine Prog.Lockstep.map ?_ hadd
    unfold auth
    dsimp only
    split
    · exact lockstep_mux
    · split
      · exact .ret (.refl _)
      · refine .call fun r r' halike => ?_
        obtain rfl : r = r' := halike
        cases r with
        | none => exact .ret (.refl _)
        | some sess => exact lockstep_mux

end

end Vexil.Server
