import Vexil.Server.Flags
import Vexil.Server.Workloads

/-!
# The audit log and the mutations it is about

Six handlers change something: four a flag of a cluster, two the registry. Each
of them asks for its change in one call, and when that succeeds it records the
event in the next call and answers; on every other way through the code it
answers with an error. `Audited` is this shape of a program, with the many ways
to refuse a request in one constructor. A request has therefore either changed
nothing and recorded nothing, or changed something and is about to record it, or
it has recorded its one event (`audited_path`).

The log is appended to by these records and by nothing else, so that at every
moment it holds one event for each request that has recorded. When no request is
between its two steps these are the requests whose change succeeded, whatever
the interleaving.
-/

namespace Vexil.Server

open Vexil.Lib Vexil.Kube

/-! ## The requests -/

inductive MutationKind where
  | createFlag | updateFlag | deleteFlag | toggleFlag
  | registerCluster | removeCluster
  deriving DecidableEq

/-- A request for a change, as a handler gets it. -/
structure MutationRequest where
  kind : MutationKind
  request : Request
  ctx : UserContext := {}
  pathValue : String → String

/-- The part of an event that says what it is about. -/
structure AuditKey where
  action : String
  resource : String
  resourceId : String
  cluster : String
  deriving DecidableEq

def AuditEvent.key (e : AuditEvent) : AuditKey :=
  ⟨e.action, e.resource, e.resourceId, e.cluster⟩

namespace MutationRequest

/-- The handler at work. -/
def prog (q : MutationRequest) : ServerProg Response :=
  match q.kind with
  | .createFlag => FlagHandler.create q.request q.ctx q.pathValue
  | .updateFlag => FlagHandler.update q.request q.ctx q.pathValue
  | .deleteFlag => FlagHandler.delete q.request q.ctx q.pathValue
  | .toggleFlag => FlagHandler.toggle q.request q.ctx q.pathValue
  | .registerCluster => ClusterHandler.register q.request q.ctx q.pathValue
  | .removeCluster => ClusterHandler.remove q.request q.ctx q.pathValue

/-- What an event about a flag has to say, for a request that names the flag in
its path. -/
def flagKey (q : MutationRequest) (action : String) : AuditKey :=
  ⟨action, "featureflag", q.pathValue "namespace" ++ "/" ++ q.pathValue "name",
    q.request.query "clusterId"⟩

/-- What an event about the request has to say. -/
def auditKey (q : MutationRequest) : AuditKey :=
  match q.kind with
  | .createFlag =>
      match q.request.body.createFlag with
      | none => ⟨"create", "featureflag", "/", ""⟩
      | some req =>
          ⟨"create", "featureflag", req.ns ++ "/" ++ req.name, req.clusterID⟩
  | .updateFlag => q.flagKey "update"
  | .deleteFlag => q.flagKey "delete"
  | .toggleFlag => q.flagKey "toggle"
  | .registerCluster =>
      match q.request.body.registerCluster with
      | none => ⟨"register", "cluster", "", ""⟩
      | some req => ⟨"register", "cluster", req.id, ""⟩
  | .removeCluster => ⟨"remove", "cluster", q.pathValue "id", ""⟩

end MutationRequest

/-! ## The calls -/

/-- The call asks for a change of a flag or of the registry. -/
def ServerCall.isMutation : ServerCall → Bool
  | .kube _ (.createFlag _) | .kube _ (.updateFlag _)
  | .kube _ (.deleteFlag _) => true
  | .clusters (.addCluster _ _ _) | .clusters (.removeCluster _) => true
  | _ => false

/-- The calls that come before. -/
def ServerCall.isLookup : ServerCall → Bool
  | .clusters (.getClient _) | .kube _ (.getFlag _) => true
  | _ => false

/-- A change that succeeded. -/
def mutates : ServerEvent → Bool
  | ⟨.kube _ (.createFlag _), .ok _⟩ | ⟨.kube _ (.updateFlag _), .ok _⟩
  | ⟨.kube _ (.deleteFlag _), .ok _⟩ => true
  | ⟨.clusters (.addCluster _ _ _), .ok _⟩
  | ⟨.clusters (.removeCluster _), .ok _⟩ => true
  | _ => false

/-- What a call adds to the audit log. -/
def recordedKey (e : ServerEvent) : Option AuditKey :=
  match e.call with
  | .store (.recordAudit event) => some event.key
  | _ => none

theorem quiet_of_lookup {c : ServerCall} (h : c.isLookup = true) (r : c.Reply) :
    mutates ⟨c, r⟩ = false ∧ recordedKey ⟨c, r⟩ = none := by
  cases c with
  | clusters c => cases c <;> first | exact ⟨rfl, rfl⟩ | cases h
  | kube client c => cases c <;> first | exact ⟨rfl, rfl⟩ | cases h
  | store | now | randRead | generateFromPassword => cases h

theorem recordedKey_of_isMutation {c : ServerCall} (h : c.isMutation = true)
    (r : c.Reply) : recordedKey ⟨c, r⟩ = none := by
  cases c with
  | store => cases h
  | clusters | kube | now | randRead | generateFromPassword => rfl

theorem recordedKey_of_mutates {e : ServerEvent} (h : mutates e = true) :
    recordedKey e = none := by
  obtain ⟨c, r⟩ := e
  cases c with
  | store => cases h
  | clusters | kube | now | randRead | generateFromPassword => rfl

/-- A call to a cluster changes something when it succeeds. -/
theorem mutates_kube_ok {client : Endpoint} {c : KubeCall}
    (h : (ServerCall.kube client c).isMutation = true) (v : c.Value) :
    mutates ⟨.kube client c, .ok v⟩ = true := by
  cases c <;> first | rfl | cases h

theorem mutates_kube_error (client : Endpoint) (c : KubeCall) (err : ApiError) :
    mutates ⟨.kube client c, .error err⟩ = false := by
  cases c <;> rfl

/-! ## The shape of the six handlers -/

def Response.IsError (resp : Response) : Prop := 400 ≤ resp.status

def Response.IsDone (resp : Response) : Prop :=
  200 ≤ resp.status ∧ resp.status < 300

theorem isError_writeError {status : Nat} {message : String}
    (h : 400 ≤ status) : (writeError status message).IsError := h

theorem isDone_writeJSON {status : Nat} {body : ResponseBody}
    (h : 200 ≤ status ∧ status < 300) : (writeJSON status body).IsDone := h

theorem isDone_noContent : (({ status := 204 } : Response)).IsDone :=
  ⟨by decide, by decide⟩

/-- It looks things up, asks for one change and, if that succeeds, records an
event with the key `a` and answers that it is done. Wherever else it stops, it
answers with an error. -/
inductive Audited (a : AuditKey) : ServerProg Response → Prop
  | refuse {resp : Response} (h : resp.IsError) : Audited a (.ret resp)
  | lookup {c : ServerCall} {k : c.Reply → ServerProg Response}
      (hc : c.isLookup = true) (hk : ∀ r, Audited a (k r)) :
      Audited a (.call c k)
  | mutate {c : ServerCall} {k : c.Reply → ServerProg Response}
      (hc : c.isMutation = true)
      (hfail : ∀ r, mutates ⟨c, r⟩ = false →
        ∃ resp, k r = .ret resp ∧ resp.IsError)
      (hok : ∀ r, mutates ⟨c, r⟩ = true → ∃ event resp,
        k r = recordAudit event (.ret resp) ∧ event.key = a ∧ resp.IsDone) :
      Audited a (.call c k)

/-- A call for the change, by what each reply leads to. -/
theorem audited_call {a : AuditKey} {c : ServerCall}
    {k : c.Reply → ServerProg Response} (hc : c.isMutation = true)
    (h : ∀ r, (mutates ⟨c, r⟩ = false ∧
        ∃ resp, k r = .ret resp ∧ resp.IsError) ∨
      (mutates ⟨c, r⟩ = true ∧ ∃ event resp,
        k r = recordAudit event (.ret resp) ∧ event.key = a ∧ resp.IsDone)) :
    Audited a (.call c k) := by
  refine .mutate hc (fun r hm => ?_) fun r hm => ?_
  · obtain ⟨_, hk⟩ | ⟨hyes, _⟩ := h r
    · exact hk
    · rw [hyes] at hm
      cases hm
  · obtain ⟨hno, _⟩ | ⟨_, hk⟩ := h r
    · rw [hno] at hm
      cases hm
    · exact hk

theorem audited_kube {a : AuditKey} {client : Endpoint} {c : KubeCall}
    {k : c.Reply → ServerProg Response}
    (hc : (ServerCall.kube client c).isMutation = true)
    (herr : ∀ err, ∃ resp, k (.error err) = .ret resp ∧ resp.IsError)
    (hok : ∀ v, ∃ event resp, k (.ok v) = recordAudit event (.ret resp) ∧
      event.key = a ∧ resp.IsDone) :
    Audited a (.call (.kube client c) k) := by
  refine audited_call hc fun r => ?_
  cases r with
  | error err => exact .inl ⟨mutates_kube_error client c err, herr err⟩
  | ok v => exact .inr ⟨mutates_kube_ok hc v, hok v⟩

theorem audited_withClient {a : AuditKey} {id notFound : String}
    {k : Endpoint → ServerProg Response} (hk : ∀ client, Audited a (k client)) :
    Audited a (withClient id notFound k) := by
  refine .lookup rfl fun r => ?_
  cases r with
  | error err => exact .refuse (isError_writeError (by decide))
  | ok client => exact hk client

theorem audited_withFlag {a : AuditKey} {r : Request}
    {pathValue : String → String}
    {k : Endpoint → FeatureFlag → ServerProg Response}
    (hk : ∀ client flag, Audited a (k client flag)) :
    Audited a (FlagHandler.withFlag r pathValue k) := by
  unfold FlagHandler.withFlag
  dsimp only
  split
  · exact .refuse (isError_writeError (by decide))
  · refine audited_withClient fun client => .lookup rfl fun reply => ?_
    cases reply with
    | error err => exact .refuse (isError_writeError (by decide))
    | ok flag => exact hk client flag

theorem audited_writeFlag {r : Request} {pathValue : String → String}
    {verb action : String} {client : Endpoint} {flag : FeatureFlag} :
    Audited ⟨action, "featureflag",
        pathValue "namespace" ++ "/" ++ pathValue "name", r.query "clusterId"⟩
      (FlagHandler.writeFlag r pathValue verb action client flag) :=
  audited_kube rfl
    (fun _ => ⟨_, rfl, isError_writeError (by decide)⟩)
    fun _ => ⟨_, _, rfl, rfl, isDone_writeJSON (by decide)⟩

theorem audited_create (r : Request) (ctx : UserContext)
    (pathValue : String → String) :
    Audited (MutationRequest.auditKey ⟨.createFlag, r, ctx, pathValue⟩)
      (FlagHandler.create r ctx pathValue) := by
  unfold MutationRequest.auditKey FlagHandler.create
  dsimp only
  cases r.body.createFlag with
  | none => exact .refuse (isError_writeError (by decide))
  | some req =>
      dsimp only
      split
      · exact .refuse (isError_writeError (by decide))
      · exact audited_withClient fun client => audited_kube rfl
          (fun _ => ⟨_, rfl, isError_writeError (by decide)⟩)
          fun _ => ⟨_, _, rfl, rfl, isDone_writeJSON (by decide)⟩

theorem audited_register (r : Request) (ctx : UserContext)
    (pathValue : String → String) :
    Audited (MutationRequest.auditKey ⟨.registerCluster, r, ctx, pathValue⟩)
      (ClusterHandler.register r ctx pathValue) := by
  unfold MutationRequest.auditKey ClusterHandler.register
  dsimp only
  cases r.body.registerCluster with
  | none => exact .refuse (isError_writeError (by decide))
  | some req =>
      dsimp only
      split
      · exact .refuse (isError_writeError (by decide))
      · refine audited_call rfl fun reply => ?_
        cases reply with
        | error err => exact .inl ⟨rfl, _, rfl, isError_writeError (by decide)⟩
        | ok _ =>
            exact .inr ⟨rfl, _, _, rfl, rfl, isDone_writeJSON (by decide)⟩

/-- Every request is audited with its own key. -/
theorem audited_prog (q : MutationRequest) : Audited q.auditKey q.prog := by
  obtain ⟨kind, r, ctx, pathValue⟩ := q
  cases kind with
  | createFlag => exact audited_create r ctx pathValue
  | registerCluster => exact audited_register r ctx pathValue
  | updateFlag =>
      refine audited_withFlag fun client flag => ?_
      cases r.body.updates with
      | none => exact .refuse (isError_writeError (by decide))
      | some updates => exact audited_writeFlag
  | toggleFlag =>
      refine audited_withFlag fun client flag => ?_
      split
      · exact .refuse (isError_writeError (by decide))
      · exact audited_writeFlag
  | deleteFlag =>
      exact audited_withFlag fun client flag => audited_kube rfl
        (fun _ => ⟨_, rfl, isError_writeError (by decide)⟩)
        fun _ => ⟨_, _, rfl, rfl, isDone_noContent⟩
  | removeCluster =>
      refine audited_call rfl fun reply => ?_
      cases reply with
      | error err => exact .inl ⟨rfl, _, rfl, isError_writeError (by decide)⟩
      | ok _ => exact .inr ⟨rfl, _, _, rfl, rfl, isDone_noContent⟩

/-! ## How far a request is -/

/-- Nothing has changed and nothing is recorded. -/
def Uneventful (tr : List ServerEvent) : Prop :=
  ∀ e ∈ tr, mutates e = false ∧ recordedKey e = none

/-- The last step was a change that succeeded; the record comes next. -/
def BetweenSteps (tr : List ServerEvent) : Prop :=
  tr.getLast?.any mutates = true

instance (tr : List ServerEvent) : Decidable (BetweenSteps tr) :=
  inferInstanceAs (Decidable (_ = true))

/-- What an audited request can have done by now. -/
inductive Stage (a : AuditKey) : List ServerEvent → ServerProg Response → Prop
  | before {tr : List ServerEvent} {p : ServerProg Response}
      (hq : Uneventful tr) (hp : Audited a p) : Stage a tr p
  | between {tr : List ServerEvent} {e : ServerEvent} {event : AuditEvent}
      {resp : Response} (hq : Uneventful tr) (he : mutates e = true)
      (ha : event.key = a) (hr : resp.IsDone) :
      Stage a (tr ++ [e]) (recordAudit event (.ret resp))
  | after {tr : List ServerEvent} {e e' : ServerEvent} {resp : Response}
      (hq : Uneventful tr) (he : mutates e = true)
      (he' : recordedKey e' = some a) (hr : resp.IsDone) :
      Stage a (tr ++ [e, e']) (.ret resp)

theorem uneventful_nil : Uneventful [] := List.forall_mem_nil _

theorem Uneventful.cons {e : ServerEvent} {tr : List ServerEvent}
    (he : mutates e = false ∧ recordedKey e = none) (h : Uneventful tr) :
    Uneventful (e :: tr) := List.forall_mem_cons.mpr ⟨he, h⟩

theorem Stage.cons {a : AuditKey} {e : ServerEvent} {tr : List ServerEvent}
    {p : ServerProg Response} (he : mutates e = false ∧ recordedKey e = none)
    (h : Stage a tr p) : Stage a (e :: tr) p := by
  cases h with
  | before hq hp => exact .before (hq.cons he) hp
  | between hq hm ha hr => exact .between (hq.cons he) hm ha hr
  | after hq hm he' hr => exact .after (hq.cons he) hm he' hr

/-- After its change an audited request records and is done. -/
theorem stage_of_recordAudit {event : AuditEvent} {resp : Response}
    {e : ServerEvent} {tr : List ServerEvent} {q : ServerProg Response}
    (he : mutates e = true) (hr : resp.IsDone)
    (h : Prog.Path (recordAudit event (.ret resp)) tr q) :
    Stage event.key (e :: tr) q := by
  cases h with
  | nil => exact .between uneventful_nil he rfl hr
  | cons h =>
      obtain ⟨rfl, rfl⟩ := Prog.path_ret.mp h
      exact .after uneventful_nil he rfl hr

theorem audited_path {a : AuditKey} {p q : ServerProg Response}
    {tr : List ServerEvent} (hp : Audited a p) (h : Prog.Path p tr q) :
    Stage a tr q := by
  induction h with
  | nil => exact .before uneventful_nil hp
  | @cons c k r tr q hpath ih =>
      cases hp with
      | lookup hc hk => exact .cons (quiet_of_lookup hc r) (ih (hk r))
      | mutate hc hfail hok =>
          by_cases hm : mutates ⟨c, r⟩ = true
          · obtain ⟨event, resp, hk, rfl, hr⟩ := hok r hm
            rw [hk] at hpath
            exact stage_of_recordAudit hm hr hpath
          · have hm' : mutates ⟨c, r⟩ = false := by simpa using hm
            obtain ⟨resp, hk, hr⟩ := hfail r hm'
            have hquiet := recordedKey_of_isMutation hc r
            exact .cons ⟨hm', hquiet⟩ (ih (by rw [hk]; exact .refuse hr))

/-- A record is the last event of its request, the only one, and has the
request's key. -/
theorem Stage.of_record {a k : AuditKey} {tr : List ServerEvent}
    {e : ServerEvent} {q : ServerProg Response} (h : Stage a (tr ++ [e]) q)
    (he : recordedKey e = some k) :
    k = a ∧ ∀ e' ∈ tr, recordedKey e' = none := by
  generalize htr : tr ++ [e] = full at h
  cases h with
  | before hq hp =>
      subst htr
      rw [(hq e (by simp)).2] at he
      cases he
  | between hq hm ha hr =>
      obtain ⟨_, heq⟩ := List.append_inj' htr rfl
      cases heq
      rw [recordedKey_of_mutates hm] at he
      cases he
  | @after tr₀ m rec resp hq hm hrec hr =>
      have hsplit : tr ++ [e] = (tr₀ ++ [m]) ++ [rec] := by simp [htr]
      obtain ⟨rfl, heq⟩ := List.append_inj' hsplit rfl
      cases heq
      refine ⟨Option.some.inj (he.symm.trans hrec), fun e' he' => ?_⟩
      obtain hmem | hmem := List.mem_append.mp he'
      · exact (hq e' hmem).2
      · rw [List.mem_singleton.mp hmem]
        exact recordedKey_of_mutates hm

/-- Outside the two steps, the requests that have changed something are those
that have recorded it. -/
theorem Stage.mutated_iff {a : AuditKey} {tr : List ServerEvent}
    {q : ServerProg Response} (h : Stage a tr q) (hnot : ¬BetweenSteps tr) :
    (∃ e ∈ tr, mutates e = true) ↔ ∃ e ∈ tr, recordedKey e ≠ none := by
  cases h with
  | before hq hp =>
      refine iff_of_false ?_ ?_
      · rintro ⟨e, he, hm⟩
        rw [(hq e he).1] at hm
        cases hm
      · rintro ⟨e, he, hrec⟩
        exact hrec (hq e he).2
  | between hq hm ha hr =>
      exact absurd (by rw [BetweenSteps]; simpa using hm) hnot
  | @after tr₀ m rec resp hq hm hrec hr =>
      refine iff_of_true ⟨m, by simp, hm⟩ ⟨rec, by simp, ?_⟩
      rw [hrec]
      exact Option.some_ne_none a

/-- An answer is an error and nothing has happened, or it is a success after
one change and one record. -/
theorem Stage.answered {a : AuditKey} {tr : List ServerEvent} {resp : Response}
    (h : Stage a tr (.ret resp)) :
    (resp.IsError ∧ Uneventful tr) ∨
      (resp.IsDone ∧ (∃ e ∈ tr, mutates e = true) ∧
        tr.filterMap recordedKey = [a]) := by
  generalize hq : (Prog.ret resp : ServerProg Response) = q at h
  cases h with
  | before hquiet hp =>
      subst hq
      cases hp with
      | refuse herr => exact .inl ⟨herr, hquiet⟩
  | between => cases hq
  | @after tr₀ m rec resp' hquiet hm hrec hr =>
      cases hq
      refine .inr ⟨hr, ⟨m, by simp, hm⟩, ?_⟩
      have hnone : tr₀.filterMap recordedKey = [] :=
        List.filterMap_eq_nil_iff.mpr fun e he => (hquiet e he).2
      rw [List.filterMap_append, hnone]
      simp [recordedKey_of_mutates hm, hrec]

/-! ## The log -/

/-- `RecordAudit` appends an event with the key it was given, and no other
method touches the events. -/
theorem events_serve (uuid : String) (now : Nat) (c : StoreCall)
    (s : MemoryStore) (r : c.Reply) :
    (c.serve uuid now s).2.events.map AuditEvent.key =
      s.events.map AuditEvent.key ++ (recordedKey ⟨.store c, r⟩).toList := by
  cases c with
  | recordAudit event =>
      show (s.events ++ [_]).map AuditEvent.key = _
      rw [List.map_append]
      rfl
  | updatePassword username hash =>
      show (s.updatePassword username hash).2.events.map _ = _ ++ []
      rw [List.append_nil]
      unfold MemoryStore.updatePassword
      split <;> rfl
  | updateUserRole username role =>
      show (s.updateUserRole username role).2.events.map _ = _ ++ []
      rw [List.append_nil]
      unfold MemoryStore.updateUserRole
      split <;> rfl
  | createUser user =>
      show (s.createUser uuid now user).2.events.map _ = _ ++ []
      rw [List.append_nil]
      unfold MemoryStore.createUser
      split <;> rfl
  | deleteUser username =>
      show (s.deleteUser username).2.events.map _ = _ ++ []
      rw [List.append_nil]
      unfold MemoryStore.deleteUser
      split <;> rfl
  | listAuditEvents | getUserByUsername | listUsers | createSession
  | getSession | deleteSession => exact (List.append_nil _).symm

theorem store_move (w : ServerMove) (s : ServerState) :
    (w.apply s).store = s.store := by
  cases w <;> rfl

section
variable [Bcrypt] [ClientGo]

/-- The log grows by what a call records and by nothing else. -/
theorem events_serverStep {s s' : ServerState} {e : ServerEvent}
    (h : ServerStep s e s') : s'.store.events.map AuditEvent.key =
      s.store.events.map AuditEvent.key ++ (recordedKey e).toList := by
  obtain ⟨c, r⟩ := e
  have hsame : s'.store.events = s.store.events →
      recordedKey ⟨c, r⟩ = none → s'.store.events.map AuditEvent.key =
        s.store.events.map AuditEvent.key ++ (recordedKey ⟨c, r⟩).toList := by
    intro hevents hrec
    rw [hevents, hrec, Option.toList_none, List.append_nil]
  cases c with
  | store c =>
      obtain ⟨uuid, _, rfl⟩ := h
      exact events_serve uuid s.now c s.store r
  | clusters c =>
      obtain ⟨fault, order, _, _, rfl⟩ := h
      exact hsame rfl rfl
  | kube client c =>
      obtain ⟨k, _, rfl⟩ := h
      exact hsame rfl rfl
  | now | randRead n | generateFromPassword password =>
      obtain ⟨_, rfl⟩ := h
      exact hsame rfl rfl

variable {ι : Type} [DecidableEq ι] {reqs : ι → MutationRequest}
variable {ls : List (ServerLabel ι)} {s₀ s : ServerState}

/-- The log is `log₀` and the event of each request that has recorded. -/
def Logged (reqs : ι → MutationRequest) (log₀ : List AuditKey)
    (ls : List (ServerLabel ι)) (s : ServerState) : Prop :=
  ∃ done : Finset ι,
    (∀ i, i ∈ done ↔ ∃ e ∈ proj i ls, recordedKey e ≠ none) ∧
    (s.store.events.map AuditEvent.key : Multiset AuditKey) =
      (log₀ : Multiset AuditKey) + done.val.map fun i => (reqs i).auditKey

/-- A call that records nothing leaves the log and who has recorded. -/
theorem Logged.unrecorded {log₀ : List AuditKey} {m s' : ServerState} {i : ι}
    {e : ServerEvent} (h : Logged reqs log₀ ls m) (hstep : ServerStep m e s')
    (he : recordedKey e = none) : Logged reqs log₀ (ls ++ [.own i e]) s' := by
  obtain ⟨done, hdone, hlog⟩ := h
  refine ⟨done, fun j => ?_, ?_⟩
  · rw [hdone j, proj_snoc]
    constructor
    · rintro ⟨e', he', hrec⟩
      exact ⟨e', List.mem_append_left _ he', hrec⟩
    · rintro ⟨e', he', hrec⟩
      obtain hmem | hmem := List.mem_append.mp he'
      · exact ⟨e', hmem, hrec⟩
      · split at hmem
        · rw [List.mem_singleton.mp hmem] at hrec
          exact absurd he hrec
        · cases hmem
  · rw [events_serverStep hstep, he, Option.toList_none, List.append_nil]
    exact hlog

/-- A record adds its request, which had not recorded before. -/
theorem Logged.recorded {log₀ : List AuditKey} {m s' : ServerState} {i : ι}
    {e : ServerEvent} {k : AuditKey} (h : Logged reqs log₀ ls m)
    (hprogs : Interleaved (fun i => (reqs i).prog) (ls ++ [.own i e]))
    (hstep : ServerStep m e s') (he : recordedKey e = some k) :
    Logged reqs log₀ (ls ++ [.own i e]) s' := by
  obtain ⟨done, hdone, hlog⟩ := h
  obtain ⟨q, hq⟩ := hprogs i
  rw [proj_snoc, if_pos rfl] at hq
  obtain ⟨rfl, hfirst⟩ := (audited_path (audited_prog (reqs i)) hq).of_record he
  have hnew : i ∉ done := by
    rw [hdone i]
    rintro ⟨e', he', hrec⟩
    exact hrec (hfirst e' he')
  refine ⟨done.cons i hnew, fun j => ?_, ?_⟩
  · rw [Finset.mem_cons, hdone j, proj_snoc]
    constructor
    · rintro (rfl | ⟨e', he', hrec⟩)
      · exact ⟨e, by simp, by rw [he]; exact Option.some_ne_none _⟩
      · exact ⟨e', List.mem_append_left _ he', hrec⟩
    · rintro ⟨e', he', hrec⟩
      obtain hmem | hmem := List.mem_append.mp he'
      · exact .inr ⟨e', hmem, hrec⟩
      · split at hmem
        · next hij => exact .inl hij.symm
        · cases hmem
  · rw [events_serverStep hstep, he, ← Multiset.coe_add, hlog,
      Finset.cons_val, Multiset.map_cons]
    simp only [Option.toList_some, Multiset.coe_singleton]
    rw [add_assoc, add_comm (Multiset.map _ _), Multiset.singleton_add]

theorem logged (hprogs : Interleaved (fun i => (reqs i).prog) ls)
    (hrun : Run ServerSystem s₀ ls s) :
    Logged reqs (s₀.store.events.map AuditEvent.key) ls s := by
  revert hprogs
  refine hrun.reverse_induction (P := fun ls s =>
    Interleaved (fun i => (reqs i).prog) ls →
      Logged reqs (s₀.store.events.map AuditEvent.key) ls s) ?_ ?_
  · intro _
    exact ⟨∅, by simp, by simp⟩
  · intro es m l s' _ ih hstep hprogs
    have hbefore := ih hprogs.of_append
    cases l with
    | other w =>
        obtain ⟨done, hdone, hlog⟩ := hbefore
        refine ⟨done, fun j => ?_, ?_⟩
        · rw [hdone j, proj_append, proj_other, proj_nil, List.append_nil]
        · rw [hstep, store_move]
          exact hlog
    | own i e =>
        cases he : recordedKey e with
        | none => exact hbefore.unrecorded hstep he
        | some k => exact hbefore.recorded hprogs hstep he

/-- When no request is between its two steps, the log has grown by one event for
each request whose change succeeded. A request that was answered with a success
has made one change and recorded its event once, and one that was answered with
an error has done neither. -/
theorem audit_matches_mutations
    (hprogs : Interleaved (fun i => (reqs i).prog) ls)
    (hrun : Run ServerSystem s₀ ls s) :
    ((∀ i, ¬BetweenSteps (proj i ls)) → ∃ done : Finset ι,
      (∀ i, i ∈ done ↔ ∃ e ∈ proj i ls, mutates e = true) ∧
      (s.store.events.map AuditEvent.key : Multiset AuditKey) =
        (s₀.store.events.map AuditEvent.key : Multiset AuditKey) +
          done.val.map fun i => (reqs i).auditKey) ∧
    ∀ i resp, Answered (fun i => (reqs i).prog) i ls resp →
      (resp.IsError ∧ Uneventful (proj i ls)) ∨
        (resp.IsDone ∧ (∃ e ∈ proj i ls, mutates e = true) ∧
          (proj i ls).filterMap recordedKey = [(reqs i).auditKey]) := by
  constructor
  · intro hbetween
    obtain ⟨done, hdone, hlog⟩ := logged hprogs hrun
    refine ⟨done, fun i => ?_, hlog⟩
    obtain ⟨q, hq⟩ := hprogs i
    rw [hdone i]
    exact ((audited_path (audited_prog (reqs i)) hq).mutated_iff
      (hbetween i)).symm
  · intro i resp hans
    exact (audited_path (audited_prog (reqs i)) hans).answered

end

/-! A cluster is registered, and removed before the registration is recorded. -/

def clusterRequests (remove : Bool) : MutationRequest where
  kind := if remove then .removeCluster else .registerCluster
  request :=
    { method := if remove then "DELETE" else "POST"
      url := ⟨"/api/v1/clusters", "/api/v1/clusters", by decide +kernel⟩
      body := { registerCluster := some {
        id := "eu", displayName := "Europe", apiServer := "eu"
        kubeconfig := "eu" } } }
  pathValue _ := "eu"

def emptyServer : ServerState where
  store := .new
  clusters := ⟨∅⟩
  kube _ := {}
  now := 0

def clusterRun :
    List (ServerLabel Bool) × (Bool → ServerProg Response) × ServerState :=
  letI := plainBcrypt
  letI := anyHost
  schedule ServerCall.serve ([false, true, true, false].map (·, {}))
    (fun i => (clusterRequests i).prog) emptyServer

theorem audit_matches_mutations_sample : ∃ done : Finset Bool,
    (∀ i, i ∈ done ↔ ∃ e ∈ proj i clusterRun.1, mutates e = true) ∧
    (clusterRun.2.2.store.events.map AuditEvent.key : Multiset AuditKey) =
      ([] : List AuditKey) +
        done.val.map fun i => (clusterRequests i).auditKey :=
  letI := plainBcrypt
  letI := anyHost
  (audit_matches_mutations (schedule_interleaved rfl)
    (schedule_run (fun _ _ _ _ _ => serve_step) rfl)).1 (by decide)

example : clusterRun.2.2.store.events.map (fun e => e.key.action) =
    ["remove", "register"] := by decide

end Vexil.Server
