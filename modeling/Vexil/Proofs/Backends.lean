import Vexil.Proofs.AlikeReplies
import Vexil.Server.Database

/-!
# The server answers alike on either store

The states stay alike under every call that the database takes, whichever answer
each of the two stores picks. This goes call by call, so that requests may
interleave in any way, and it goes in both directions: a run of the one server
has a run of the other beside it. The exceptions are a call with a value that
the database refuses (`StoreCall.Taken`) and a token that is checked within a
microsecond of its expiry.
-/

namespace Vexil.Server

open Vexil.Lib Vexil.Kube PostgresStore

/-! ## The stores -/

section
variable [Postgres]

/-- A row of the log and the event it is for. -/
structure SameEvent (e : AuditEvent) (row : AuditRow) : Prop where
  back : GivenBack e (scanEvent row)
  cluster : row.cluster = some e.cluster

structure SameStore (s : MemoryStore) (p : PostgresStore) : Prop where
  accounts : SameAccounts s p
  events : List.Forall₂ SameEvent s.events p.auditEvents

theorem SameEvent.matches {e : AuditEvent} {row : AuditRow}
    (h : SameEvent e row) {filter : AuditFilter}
    (hsince : filter.since = none) :
    MemoryStore.keeps filter e = rowMatches filter row := by
  have hactor : row.actor = e.actor := h.back.actor
  have haction : row.action = e.action := h.back.action
  have hresource : row.resource = e.resource := h.back.resource
  have hresourceId : row.resourceId = e.resourceId := h.back.resourceId
  rw [MemoryStore.keeps, rowMatches, hsince, hactor, haction, hresource,
    hresourceId, h.cluster]
  simp only [Option.some.injEq, Option.all_none]

theorem SameStore.listAuditEvents {s : MemoryStore} {p : PostgresStore}
    (h : SameStore s p) {filter : AuditFilter} {rows : List AuditRow}
    (hrows : (auditQuery filter).1.Answers AuditRow.read (auditQuery filter).2
      p.auditEvents rows) (hsince : filter.since = none)
    (hlimit : filter.limit ≤ 0) :
    SameEntries (s.listAuditEvents filter) (rows.map scanEvent) := by
  obtain ⟨_, sorted, hperm, _, rfl⟩ := hrows
  have hall : ∀ {α : Type} (l : List α), limited filter.limit l = l := by
    intro α l
    rw [limited, if_neg (not_lt.mpr hlimit)]
  rw [passing_auditQuery] at hperm
  rw [cut_auditQuery, hall, listAuditEvents_eq]
  have hlisted := forall₂_listed (R := SameEvent) filter.limit
    (fun _ _ he => he.matches hsince) h.events
  have halike : List.Forall₂ AuditEvent.Alike
      (limited filter.limit
        (s.events.filter (MemoryStore.keeps filter)).reverse)
      ((p.auditEvents.filter (rowMatches filter)).reverse.map scanEvent) := by
    rw [hall, hall] at hlisted
    rw [hall, List.forall₂_map_right_iff]
    exact hlisted.imp fun _ _ he => .inr (.inl he.back)
  rw [SameEntries, ← List.forall₂_comp_perm_eq_perm_comp_forall₂]
  refine ⟨_, halike, List.Perm.map scanEvent ?_⟩
  exact (List.reverse_perm _).trans hperm.symm

end

/-- The names of the users, each once. -/
theorem username_listUsers (s : MemoryStore) :
    s.listUsers.map User.username = s.users.sortedKeys := by
  have hname : ∀ name ∈ s.users.sortedKeys, ∃ u, s.users.lookup name = some u ∧
      u.username = name := by
    intro name hmem
    obtain ⟨u, hu⟩ := Option.isSome_iff_exists.mp
      (Finmap.lookup_isSome.mpr ((s.users.ranges_sortedKeys.2 name).mp hmem))
    exact ⟨u, hu, s.keyed name u hu⟩
  rw [MemoryStore.listUsers]
  revert hname
  induction s.users.sortedKeys with
  | nil => exact fun _ => rfl
  | cons name rest ih =>
      intro hname
      obtain ⟨u, hu, huname⟩ := hname name List.mem_cons_self
      rw [List.filterMap_cons, hu, Option.map_some]
      dsimp only
      rw [List.map_cons, ih fun n hn => hname n (List.mem_cons_of_mem name hn)]
      exact congrArg (· :: rest) huname

/-- The account without its hash, as it is listed. -/
def Account.listed (a : Account) : Account := { a with passwordHash := "" }

theorem mem_listUsers {s : MemoryStore} {a : Account} :
    a ∈ s.listUsers.map User.account ↔ ∃ name,
      ((s.users.lookup name).map User.account).map Account.listed = some a := by
  simp only [MemoryStore.listUsers, List.mem_map, List.mem_filterMap,
    Option.map_eq_some_iff]
  constructor
  · rintro ⟨_, ⟨name, _, u, hu, rfl⟩, rfl⟩
    exact ⟨name, _, ⟨u, hu, rfl⟩, rfl⟩
  · rintro ⟨name, _, ⟨u, hu, rfl⟩, rfl⟩
    have hmem : name ∈ s.users.sortedKeys :=
      (s.users.ranges_sortedKeys.2 name).mpr (Finmap.mem_of_lookup_eq_some hu)
    exact ⟨_, ⟨name, hmem, u, hu, rfl⟩, rfl⟩

theorem mem_scanListed {p : PostgresStore} {a : Account} :
    a ∈ (p.users.items.map scanListed).map User.account ↔ ∃ name,
      ((p.users.get? name).map UserRow.account).map Account.listed =
        some a := by
  simp only [List.mem_map, Option.map_eq_some_iff]
  constructor
  · rintro ⟨_, ⟨row, hrow, rfl⟩, rfl⟩
    exact ⟨row.username, _, ⟨row, Table.get?_of_mem hrow, rfl⟩, rfl⟩
  · rintro ⟨name, _, ⟨row, hrow, rfl⟩, rfl⟩
    exact ⟨_, ⟨row, Table.mem_of_get? hrow, rfl⟩, rfl⟩

/-- Every name has one account in either store. -/
theorem SameStore.listUsers [Postgres] {s : MemoryStore} {p : PostgresStore}
    (h : SameStore s p) {rows : List UserRow}
    (hrows : rows.Perm p.users.items) :
    SameAccountsListed s.listUsers (rows.map scanListed) := by
  refine List.Perm.trans ?_ ((hrows.map scanListed).map User.account).symm
  refine (List.perm_ext_iff_of_nodup ?_ ?_).mpr fun a => ?_
  · refine .of_map Account.username ?_
    rw [List.map_map]
    show (s.listUsers.map User.username).Nodup
    rw [username_listUsers]
    exact s.users.ranges_sortedKeys.1
  · refine .of_map Account.username ?_
    rw [List.map_map, List.map_map]
    exact p.users.nodup
  · rw [mem_listUsers, mem_scanListed]
    simp only [h.accounts.users]

/-! ## A call of the store -/

/-- The call adds to the log. -/
def StoreCall.records : StoreCall → Bool
  | .recordAudit _ => true
  | _ => false

theorem events_unrecorded {c : StoreCall} (hc : c.records = false)
    (uuid : String) (now : Nat) (s : MemoryStore) :
    (c.serve uuid now s).2.events = s.events := by
  cases c with
  | recordAudit event => cases hc
  | updatePassword name hash =>
      show (s.updatePassword name hash).2.events = _
      unfold MemoryStore.updatePassword
      split <;> rfl
  | updateUserRole name role =>
      show (s.updateUserRole name role).2.events = _
      unfold MemoryStore.updateUserRole
      split <;> rfl
  | createUser user =>
      show (s.createUser uuid now user).2.events = _
      unfold MemoryStore.createUser
      split <;> rfl
  | deleteUser name =>
      show (s.deleteUser name).2.events = _
      unfold MemoryStore.deleteUser
      split <;> rfl
  | _ => rfl

section
variable [Postgres] {s : MemoryStore} {p p' : PostgresStore}

/-- The database takes what the call is given. -/
def StoreCall.Taken : StoreCall → Prop
  | .recordAudit event => TakesEvent event
  | .listAuditEvents filter => takesFilter filter = true
  | .getUserByUsername username => Postgres.takes username = true
  | .updatePassword username hash =>
      [hash, username].all Postgres.takes = true
  | .createUser user => TakesUser user
  | .deleteUser username => Postgres.takes username = true
  | .updateUserRole username role => [role, username].all Postgres.takes = true
  | .createSession token username role expiresAt =>
      TakesSession token username role expiresAt
  | .deleteSession token => Postgres.takes token = true
  | .listUsers | .getSession _ => True

/-- The call asks for a session in the microsecond of its expiry. -/
def StoreCall.AtExpiry (now : Nat) (s : MemoryStore) (c : StoreCall) : Prop :=
  ∃ token sess, c = .getSession token ∧ s.sessions.lookup token = some sess ∧
    micros now = micros sess.expiresAt

theorem SameStore.recordAudit (h : SameStore s p) (uuid uuid' : String)
    (now : Nat) {event : AuditEvent} (htakes : TakesEvent event) :
    (p.recordAudit uuid' now event).1 = .ok () ∧
    SameStore (s.recordAudit uuid now event)
      (p.recordAudit uuid' now event).2 := by
  have hsome : (AuditRecord.mk event now uuid uuid').row?.isSome = true :=
    isSome_row?.mpr htakes
  obtain ⟨row, hrow⟩ := Option.isSome_iff_exists.mp hsome
  obtain ⟨hok, hadded⟩ := recordAudit_row? p ⟨event, now, uuid, uuid'⟩
  obtain ⟨hback, _, hcluster⟩ := row?_some hrow
  rw [hrow] at hok hadded
  refine ⟨?_, ?_⟩
  · cases hr : (p.recordAudit uuid' now event).1 with
    | ok u => rfl
    | error err =>
        rw [hr] at hok
        cases hok
  · rw [hadded]
    refine ⟨⟨h.accounts.users, h.accounts.sessions, h.accounts.names,
      h.accounts.tokens⟩, ?_⟩
    exact List.rel_append h.events (.cons ⟨hback, hcluster⟩ .nil)

variable [Collation]

theorem auditEvents_queries {c : StoreCall} {now : Nat} {r : c.Reply}
    (hq : c.Queries now p r p') (hc : c.records = false) :
    p'.auditEvents = p.auditEvents := by
  cases c with
  | recordAudit event => cases hc
  | updatePassword name hash =>
      rw [show p' = _ from congrArg Prod.snd hq, PostgresStore.updatePassword]
      split <;> rfl
  | updateUserRole name role =>
      rw [show p' = _ from congrArg Prod.snd hq, PostgresStore.updateUserRole]
      split <;> rfl
  | createUser user =>
      obtain ⟨uuid, hq⟩ := hq
      rw [show p' = _ from congrArg Prod.snd hq]
      by_cases htakes : TakesUser user
      · cases hget : p.users.get? user.username with
        | none => rw [createUser_new uuid now htakes hget]
        | some row => rw [createUser_there uuid now htakes.1 hget]
      · obtain ⟨err, hrefused⟩ := createUser_refused (p := p) uuid now htakes
        rw [hrefused]
  | deleteUser name =>
      rw [show p' = _ from congrArg Prod.snd hq, PostgresStore.deleteUser]
      split <;> rfl
  | createSession token name role expiresAt =>
      rw [show p' = _ from congrArg Prod.snd hq, PostgresStore.createSession]
      split <;> rfl
  | deleteSession token =>
      rw [show p' = _ from congrArg Prod.snd hq, PostgresStore.deleteSession]
      split <;> rfl
  | listAuditEvents | getUserByUsername | listUsers | getSession => rw [hq.2]

omit [Collation] in
/-- A call that leaves the log of either store. -/
theorem SameStore.of_accounts (h : SameStore s p) {c : StoreCall}
    (hc : c.records = false) (hlog : p'.auditEvents = p.auditEvents)
    {uuid : String} {now : Nat}
    (haccounts : SameAccounts (c.serve uuid now s).2 p') :
    SameStore (c.serve uuid now s).2 p' := by
  refine ⟨haccounts, ?_⟩
  rw [events_unrecorded hc, hlog]
  exact h.events

/-- Whatever the two stores answer is alike, and they stay alike. -/
theorem SameStore.queries (h : SameStore s p) {now : Nat} {c : StoreCall}
    {r : c.Reply} (hq : c.Queries now p r p') (htaken : c.Taken)
    (hexpiry : ¬c.AtExpiry now s) (uuid : String) :
    c.Alike (c.serve uuid now s).1 r ∧
      SameStore (c.serve uuid now s).2 p' := by
  cases c with
  | recordAudit event =>
      obtain ⟨uuid', hq⟩ := hq
      obtain ⟨rfl, rfl⟩ := Prod.mk.inj hq
      obtain ⟨hok, hsame⟩ := h.recordAudit uuid uuid' now htaken
      exact ⟨hok.symm, hsame⟩
  | listAuditEvents filter =>
      obtain ⟨hlists, rfl⟩ := hq
      have htaken : takesFilter filter = true := htaken
      rw [ListsAuditEvents, if_pos htaken] at hlists
      obtain ⟨rows, hrows, rfl⟩ := hlists
      exact ⟨h.listAuditEvents hrows, h⟩
  | getUserByUsername name =>
      obtain ⟨rfl, rfl⟩ := hq
      exact ⟨h.accounts.getUserByUsername htaken, h⟩
  | updatePassword name hash =>
      have hlog := auditEvents_queries hq rfl
      obtain ⟨rfl, rfl⟩ := Prod.mk.inj hq
      obtain ⟨hreply, hsame⟩ := h.accounts.updatePassword htaken
      exact ⟨hreply, h.of_accounts rfl hlog hsame⟩
  | createUser user =>
      have hlog := auditEvents_queries hq rfl
      obtain ⟨uuid', hq⟩ := hq
      obtain ⟨rfl, rfl⟩ := Prod.mk.inj hq
      obtain ⟨hreply, hsame⟩ := h.accounts.createUser uuid uuid' now htaken
      exact ⟨hreply, h.of_accounts rfl hlog hsame⟩
  | listUsers =>
      obtain ⟨⟨users, ⟨rows, hperm, _, rfl⟩, rfl⟩, rfl⟩ := hq
      exact ⟨h.listUsers hperm, h⟩
  | deleteUser name =>
      have hlog := auditEvents_queries hq rfl
      obtain ⟨rfl, rfl⟩ := Prod.mk.inj hq
      obtain ⟨hreply, hsame⟩ := h.accounts.deleteUser htaken
      exact ⟨hreply, h.of_accounts rfl hlog hsame⟩
  | updateUserRole name role =>
      have hlog := auditEvents_queries hq rfl
      obtain ⟨rfl, rfl⟩ := Prod.mk.inj hq
      obtain ⟨hreply, hsame⟩ := h.accounts.updateUserRole htaken
      exact ⟨hreply, h.of_accounts rfl hlog hsame⟩
  | createSession token name role expiresAt =>
      have hlog := auditEvents_queries hq rfl
      obtain ⟨rfl, rfl⟩ := Prod.mk.inj hq
      obtain ⟨hok, hsame⟩ := h.accounts.createSession htaken
      exact ⟨hok.symm, h.of_accounts rfl hlog hsame⟩
  | getSession token =>
      obtain ⟨rfl, rfl⟩ := hq
      refine ⟨(h.accounts.getSession_eq_iff now token).mpr ?_, h⟩
      exact fun sess hlookup hat =>
        hexpiry ⟨token, sess, rfl, hlookup, hat.1⟩
  | deleteSession token =>
      have hlog := auditEvents_queries hq rfl
      obtain ⟨rfl, rfl⟩ := Prod.mk.inj hq
      obtain ⟨hok, hsame⟩ := h.accounts.deleteSession htaken
      exact ⟨hok.symm, h.of_accounts rfl hlog hsame⟩

omit [Collation] in
theorem answers_mergeSort (p : PostgresStore) (filter : AuditFilter) :
    (auditQuery filter).1.Answers AuditRow.read (auditQuery filter).2
      p.auditEvents ((auditQuery filter).1.cut (auditQuery filter).2
        (((auditQuery filter).1.passing AuditRow.read (auditQuery filter).2
          p.auditEvents).mergeSort AuditRow.newest)) := by
  refine ⟨bound_auditQuery filter, _, List.mergeSort_perm _ _, ?_, rfl⟩
  have htrans : ∀ a b c : AuditRow,
      AuditRow.newest a b → AuditRow.newest b c → AuditRow.newest a c := by
    intro a b c hab hbc
    simp only [AuditRow.newest, decide_eq_true_eq] at *
    exact hbc.trans hab
  have htotal : ∀ a b : AuditRow,
      AuditRow.newest a b || AuditRow.newest b a := by
    intro a b
    simp only [AuditRow.newest, Bool.or_eq_true, decide_eq_true_eq]
    exact Nat.le_total b.timestamp a.timestamp
  have hsorted := List.pairwise_mergeSort htrans htotal
    ((auditQuery filter).1.passing AuditRow.read (auditQuery filter).2
      p.auditEvents)
  refine hsorted.imp fun hab => ?_
  rw [inOrder_auditQuery]
  exact of_decide_eq_true hab

/-- The database can answer every call. -/
theorem queries_query (c : StoreCall) (uuid : String) (now : Nat)
    (p : PostgresStore) :
    c.Queries now p (c.query uuid now p).1 (c.query uuid now p).2 := by
  cases c with
  | recordAudit event => exact ⟨uuid, rfl⟩
  | createUser user => exact ⟨uuid, rfl⟩
  | listAuditEvents filter =>
      refine ⟨?_, rfl⟩
      show p.ListsAuditEvents filter (if takesFilter filter then .ok _ else _)
      unfold ListsAuditEvents
      split
      · exact ⟨_, answers_mergeSort p filter, rfl⟩
      · rfl
  | listUsers =>
      refine ⟨⟨_, ⟨_, List.mergeSort_perm _ _, ?_, rfl⟩, rfl⟩, rfl⟩
      exact List.pairwise_mergeSort
        (fun a b c => Collation.trans a.username b.username c.username)
        (fun a b => Collation.total a.username b.username) p.users.items
  | updatePassword | deleteUser | updateUserRole | createSession
  | deleteSession => exact rfl
  | getUserByUsername | getSession => exact ⟨rfl, rfl⟩

theorem query_step [Bcrypt] [ClientGo] {o : Oracle} {t t' : DatabaseState}
    {e : ServerEvent} (h : Answers (ServerCall.query o) t e t') :
    DatabaseStep t e t' := by
  obtain ⟨c, r⟩ := e
  have hreply : (c.query o t).1 = r := congrArg Prod.fst h
  have hstate : t' = (c.query o t).2 := (congrArg Prod.snd h).symm
  subst hreply hstate
  cases c with
  | store c => exact ⟨_, queries_query c o.uuid t.now t.store, rfl⟩
  | clusters c => exact ⟨o.fault, _, GoMap.ranges_sortedKeys _, rfl, rfl⟩
  | kube client c => exact ⟨_, KubeStep.stale ⟨o.fault, rfl⟩, rfl⟩
  | now => exact ⟨rfl, rfl⟩
  | randRead n =>
      refine ⟨fun bytes hbytes => ?_, rfl⟩
      simp only [ServerCall.query] at hbytes
      split at hbytes
      · next hlen =>
          cases hbytes
          exact hlen
      · cases hbytes
  | generateFromPassword password => exact ⟨⟨o.salt, rfl⟩, rfl⟩

end

/-! ## The servers -/

section
variable [Postgres]

structure SameServer (s : ServerState) (t : DatabaseState) : Prop where
  store : SameStore s.store t.store
  clusters : s.clusters = t.clusters
  kube : s.kube = t.kube
  now : s.now = t.now

/-- If the next step is a call of the store, the database takes it, and it does
not ask for a session in the microsecond of its expiry. -/
def ServerState.Serves {ι : Type} (s : ServerState) (l : ServerLabel ι) :
    Prop :=
  ∀ i c r, l = .own i ⟨.store c, r⟩ → c.Taken ∧ ¬c.AtExpiry s.now s.store

/-- The same, for the database. An expiry that was rounded is of this
microsecond or of the next. -/
def DatabaseState.Serves {ι : Type} (t : DatabaseState) (l : ServerLabel ι) :
    Prop :=
  ∀ i c r, l = .own i ⟨.store c, r⟩ → c.Taken ∧
    ∀ token row, c = .getSession token →
      t.store.sessions.get? token = some row →
      row.expiresAt ≠ micros t.now ∧ row.expiresAt ≠ micros t.now + 1

end

section
variable {ι : Type} {s s' : ServerState} {t t' : DatabaseState} [Postgres]

theorem SameServer.move (h : SameServer s t) (w : ServerMove) :
    SameServer (w.apply s) (t.move w) := by
  obtain ⟨store, clusters, kube, now⟩ := t
  obtain ⟨hstore, rfl, rfl, rfl⟩ := h
  cases w with
  | kube client w => exact ⟨hstore, rfl, rfl, rfl⟩
  | tick now => exact ⟨hstore, rfl, rfl, rfl⟩

theorem SameServer.not_atExpiry (h : SameServer s t) {c : StoreCall}
    (hlive : ∀ token row, c = .getSession token →
      t.store.sessions.get? token = some row →
      row.expiresAt ≠ micros t.now ∧ row.expiresAt ≠ micros t.now + 1) :
    ¬c.AtExpiry s.now s.store := by
  rintro ⟨token, sess, hc, hlookup, hexpires⟩
  have htoken := h.store.accounts.sessions token
  rw [hlookup, Option.map_some] at htoken
  obtain ⟨row, hrow, hstored⟩ := Option.map_eq_some_iff.mp htoken.symm
  have htime : Postgres.timestamptz sess.expiresAt = some row.expiresAt :=
    (Prod.mk.inj (Prod.mk.inj hstored).2).2.symm
  have hnear := Postgres.near _ _ htime
  have hne := hlive token row hc hrow
  rw [← h.now] at hne
  unfold micros at hexpires hne
  omega

variable [Bcrypt] [ClientGo] [Collation]

/-- A step on the database has a step in memory beside it. -/
theorem SameServer.toMemory (h : SameServer s t) {l : ServerLabel ι}
    (hstep : DatabaseSystem t l t') (hserves : t.Serves l) :
    ∃ l' s', Label.Alike ServerCall.Alike l l' ∧ ServerSystem s l' s' ∧
      SameServer s' t' := by
  have hserved (i : ι) (c : StoreCall) (r : c.Reply)
      (hl : l = .own i ⟨.store c, r⟩) :
      c.Taken ∧ ¬c.AtExpiry s.now s.store :=
    ⟨(hserves i c r hl).1, h.not_atExpiry (hserves i c r hl).2⟩
  have hmove := h.move
  obtain ⟨store, clusters, kube, now⟩ := t
  obtain ⟨hstore, rfl, rfl, rfl⟩ := h
  cases l with
  | other w =>
      obtain rfl := hstep
      exact ⟨.other w, _, .other, rfl, hmove w⟩
  | own i e =>
      obtain ⟨c, r⟩ := e
      cases c with
      | store c =>
          obtain ⟨store', hq, rfl⟩ := hstep
          obtain ⟨htaken, hexpiry⟩ := hserved i c r rfl
          obtain ⟨halike, hsame⟩ := hstore.queries hq htaken hexpiry "uuid"
          exact ⟨_, _, .own (.mk (ServerCall.Alike.symm halike)),
            ⟨"uuid", rfl, rfl⟩, hsame, rfl, rfl, rfl⟩
      | clusters c =>
          obtain ⟨fault, order, hranges, rfl, rfl⟩ := hstep
          exact ⟨_, _, .own (.mk rfl), ⟨fault, order, hranges, rfl, rfl⟩,
            hstore, rfl, rfl, rfl⟩
      | kube client c =>
          obtain ⟨k, hk, rfl⟩ := hstep
          exact ⟨_, _, .own (.mk rfl), ⟨k, hk, rfl⟩, hstore, rfl, rfl, rfl⟩
      | now | randRead n | generateFromPassword password =>
          obtain ⟨hr, rfl⟩ := hstep
          exact ⟨_, s, .own (.mk rfl), ⟨hr, rfl⟩, hstore, rfl, rfl, rfl⟩

/-- A step in memory has a step on the database beside it. -/
theorem SameServer.toDatabase (h : SameServer s t) {l : ServerLabel ι}
    (hstep : ServerSystem s l s') (hserves : s.Serves l) :
    ∃ l' t', Label.Alike ServerCall.Alike l l' ∧ DatabaseSystem t l' t' ∧
      SameServer s' t' := by
  have hmove := h.move
  obtain ⟨store, clusters, kube, now⟩ := t
  obtain ⟨hstore, rfl, rfl, rfl⟩ := h
  cases l with
  | other w =>
      obtain rfl := hstep
      exact ⟨.other w, _, .other, rfl, hmove w⟩
  | own i e =>
      obtain ⟨c, r⟩ := e
      cases c with
      | store c =>
          obtain ⟨uuid, rfl, rfl⟩ := hstep
          have hq := queries_query c uuid s.now store
          obtain ⟨htaken, hexpiry⟩ := hserves i c _ rfl
          obtain ⟨halike, hsame⟩ := hstore.queries hq htaken hexpiry uuid
          exact ⟨_, _, .own (.mk halike), ⟨_, hq, rfl⟩, hsame, rfl, rfl, rfl⟩
      | clusters c =>
          obtain ⟨fault, order, hranges, rfl, rfl⟩ := hstep
          exact ⟨_, _, .own (.mk rfl), ⟨fault, order, hranges, rfl, rfl⟩,
            hstore, rfl, rfl, rfl⟩
      | kube client c =>
          obtain ⟨k, hk, rfl⟩ := hstep
          exact ⟨_, _, .own (.mk rfl), ⟨k, hk, rfl⟩, hstore, rfl, rfl, rfl⟩
      | now | randRead n | generateFromPassword password =>
          obtain ⟨hr, rfl⟩ := hstep
          exact ⟨_, _, .own (.mk rfl), ⟨hr, rfl⟩, hstore, rfl, rfl, rfl⟩

/-! ## Runs -/

variable [DecidableEq ι] [Apimachinery] {origins : String} {reqs : ι → Request}

/-- What the one server does for its requests is what the other does for the
same requests: the same calls in the same order, with replies that are alike,
and answers that are alike. -/
structure ServedAlike (origins : String) (reqs : ι → Request)
    (ls ls' : List (ServerLabel ι)) : Prop where
  events : List.Forall₂ (Label.Alike ServerCall.Alike) ls ls'
  served : Interleaved (fun i => serve origins (reqs i)) ls'
  answers {i : ι} {resp : Response} :
    Answered (fun i => serve origins (reqs i)) i ls resp →
    ∃ resp', Answered (fun i => serve origins (reqs i)) i ls' resp' ∧
      resp.Alike resp'

omit [ClientGo] [Collation] in
theorem servedAlike {ls ls' : List (ServerLabel ι)}
    (hprogs : Interleaved (fun i => serve origins (reqs i)) ls)
    (hls : List.Forall₂ (Label.Alike ServerCall.Alike) ls ls') :
    ServedAlike origins reqs ls ls' where
  events := hls
  served := hprogs.lockstep (fun i => lockstep_serve origins (reqs i)) hls
  answers hresp := hresp.lockstep (fun i => lockstep_serve origins (reqs i)) hls

/-- As long as the database takes every call of the store, and no token is
checked within a microsecond of its expiry, the server on PostgreSQL and the
server in memory can do the same for any requests, however their calls
interleave: each run of one of them has a run of the other in which every
request makes the same calls and gets the same answer, but for made-up
identifiers, times of creation, the order of a listing and what JSON makes of a
diff, and which leaves the same accounts, sessions, log, registry and
clusters. -/
theorem backends_alike (h : SameServer s t) {ls : List (ServerLabel ι)}
    (hprogs : Interleaved (fun i => serve origins (reqs i)) ls) :
    (∀ t', Run (Restrict DatabaseSystem DatabaseState.Serves) t ls t' →
      ∃ ls' s', Run ServerSystem s ls' s' ∧ SameServer s' t' ∧
        ServedAlike origins reqs ls ls') ∧
    ∀ s', Run (Restrict ServerSystem ServerState.Serves) s ls s' →
      ∃ ls' t', Run DatabaseSystem t ls' t' ∧ SameServer s' t' ∧
        ServedAlike origins reqs ls ls' := by
  refine ⟨fun t' hrun => ?_, fun s' hrun => ?_⟩
  · have hstep : ∀ (t : DatabaseState) (s : ServerState) (l : ServerLabel ι) t',
        SameServer s t →
        Restrict DatabaseSystem DatabaseState.Serves t l t' →
        ∃ l' s', Label.Alike ServerCall.Alike l l' ∧ ServerSystem s l' s' ∧
          SameServer s' t' :=
      fun t s l t' hsame hstep => hsame.toMemory hstep.1 hstep.2
    obtain ⟨ls', s', hls, hrun', hsame⟩ := hrun.simulates hstep h
    exact ⟨ls', s', hrun', hsame, servedAlike hprogs hls⟩
  · obtain ⟨ls', t', hls, hrun', hsame⟩ := hrun.simulates
      (fun s t l s' hsame hstep => hsame.toDatabase hstep.1 hstep.2) h
    exact ⟨ls', t', hrun', hsame, servedAlike hprogs hls⟩

end

/-! An admin deletes a user, on the database. -/

def staffCalls : List StoreCall := [
  .createUser { username := "admin", passwordHash := "", role := "admin" },
  .createUser { username := "carol", passwordHash := "", role := "editor" },
  .createSession "t0ken" "admin" "admin" 1000000]

def staffedMemory : ServerState where
  store := staffCalls.foldl (fun s c => (c.serve "uuid" 0 s).2) .new
  clusters := ⟨∅⟩
  kube _ := {}
  now := 0

def staffedDatabase : DatabaseState where
  store :=
    letI := bytewise
    letI := plainPostgres
    staffCalls.foldl (fun s c => (c.query "uuid" 0 s).2) {}
  clusters := ⟨∅⟩
  kube _ := {}
  now := 0

theorem sameServer_staffed :
    letI := plainPostgres
    SameServer staffedMemory staffedDatabase := by
  let := bytewise
  let := plainPostgres
  have hfill : ∀ (calls : List StoreCall) (s : MemoryStore) (p : PostgresStore),
      SameStore s p →
      (∀ c ∈ calls, c.Taken ∧ ¬∃ token, c = .getSession token) →
      SameStore (calls.foldl (fun s c => (c.serve "uuid" 0 s).2) s)
        (calls.foldl (fun p c => (c.query "uuid" 0 p).2) p) := by
    intro calls
    induction calls with
    | nil => exact fun s p h _ => h
    | cons c calls ih =>
        intro s p h hc
        obtain ⟨htaken, hget⟩ := hc c List.mem_cons_self
        refine ih _ _ ?_ fun c' hc' => hc c' (.tail _ hc')
        refine (h.queries (queries_query c "uuid" 0 p) htaken ?_ "uuid").2
        exact fun ⟨token, _, heq, _⟩ => hget ⟨token, heq⟩
  refine ⟨hfill staffCalls _ _ ⟨sameAccounts_empty, .nil⟩ ?_, rfl, rfl, rfl⟩
  simp only [staffCalls, List.forall_mem_cons]
  refine ⟨⟨⟨?_, ?_⟩, nofun⟩, ⟨⟨?_, ?_⟩, nofun⟩, ⟨?_, nofun⟩, nofun⟩
  case refine_5 =>
    show TakesSession "t0ken" "admin" "admin" 1000000
    exact ⟨by decide +kernel, by decide +kernel, by decide +kernel⟩
  all_goals decide +kernel

def removeCarol : Request where
  method := "DELETE"
  url := ⟨"/api/v1/users/carol", "/api/v1/users/carol", by decide +kernel⟩
  authorization := "Bearer t0ken"

def removeExec : List ServerEvent × Response × DatabaseState :=
  letI := labelSelectors
  letI := plainBcrypt
  letI := anyHost
  letI := bytewise
  letI := plainPostgres
  (serve "*" removeCarol).exec (ServerCall.query {}) staffedDatabase

theorem removeExec_eq :
    letI := labelSelectors
    letI := plainBcrypt
    letI := anyHost
    letI := bytewise
    letI := plainPostgres
    (serve "*" removeCarol).exec (ServerCall.query {}) staffedDatabase =
      removeExec := rfl

/-- The call of the store, if it is one. -/
def storeCall : ServerEvent → Option StoreCall
  | ⟨.store c, _⟩ => some c
  | _ => none

theorem removeExec_completes :
    letI := labelSelectors
    letI := plainBcrypt
    letI := anyHost
    letI := bytewise
    letI := plainPostgres
    Completes (Answers (ServerCall.query {})) (serve "*" removeCarol)
      staffedDatabase removeExec.1 removeExec.2.1 removeExec.2.2 := by
  have h := removeExec_eq
  -- the run is not to be computed here
  generalize removeExec = r at h ⊢
  exact Prog.completes_of_exec h

/-- The token is checked before anything else, and it is not about to expire. -/
theorem removeExec_run :
    letI := plainBcrypt
    letI := anyHost
    letI := bytewise
    letI := plainPostgres
    Run (Restrict DatabaseSystem DatabaseState.Serves) staffedDatabase
      (ownAll () removeExec.1 : List (ServerLabel Unit)) removeExec.2.2 := by
  have hcalls : removeExec.1.map storeCall =
      [some (.getSession "t0ken"), some (.deleteUser "carol")] := by
    decide +kernel
  have hlive : ∀ r ∈ staffedDatabase.store.sessions.items,
      r.expiresAt ≠ 0 ∧ r.expiresAt ≠ 1 := by decide +kernel
  have hrun := removeExec_completes.2
  generalize removeExec.1 = tr at hcalls hrun ⊢
  generalize removeExec.2.2 = t' at hrun ⊢
  obtain ⟨e, rest, rfl, hcall, hrest⟩ := List.map_eq_cons_iff.mp hcalls
  obtain ⟨e', rest, rfl, hcall', hrest⟩ := List.map_eq_cons_iff.mp hrest
  obtain rfl := List.map_eq_nil_iff.mp hrest
  obtain ⟨m, hfirst, hrest⟩ := run_cons.mp hrun
  obtain ⟨m', hsecond, hend⟩ := run_cons.mp hrest
  obtain rfl := run_nil.mp hend
  let := plainBcrypt
  let := anyHost
  let := bytewise
  let := plainPostgres
  refine .cons ⟨query_step hfirst, ?_⟩ (.cons ⟨query_step hsecond, ?_⟩ .nil)
  · rintro _ c r hl
    obtain ⟨_, rfl⟩ := Label.own.inj hl
    obtain rfl := Option.some.inj hcall
    refine ⟨trivial, fun token row _ hrow => ?_⟩
    exact hlive row (Table.mem_of_get? hrow)
  · rintro _ c r hl
    obtain ⟨_, rfl⟩ := Label.own.inj hl
    obtain rfl := Option.some.inj hcall'
    refine ⟨?_, nofun⟩
    show decide _ = true
    decide +kernel

theorem backends_alike_sample :
    letI := labelSelectors
    letI := plainBcrypt
    letI := anyHost
    letI := bytewise
    letI := plainPostgres
    ∃ ls' s', Run ServerSystem staffedMemory ls' s' ∧
      SameServer s' removeExec.2.2 ∧
      ServedAlike "*" (fun _ => removeCarol) (ownAll () removeExec.1) ls' :=
  letI := labelSelectors
  letI := plainBcrypt
  letI := anyHost
  letI := bytewise
  letI := plainPostgres
  (backends_alike sameServer_staffed
    (interleaved_single removeExec_completes.1)).1 _ removeExec_run

end Vexil.Server
