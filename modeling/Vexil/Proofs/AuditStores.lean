import Vexil.Server.Postgres

/-!
# Two audit stores

`MemoryStore` goes through its events, turns the list round and cuts it;
`PostgresStore` assembles a query. Under the meaning of SQL the query keeps the
rows that meet the conditions it was built with, and the conditions are right
because the number of the next parameter is one more than the number of
arguments at every point of the construction (`Means`), whatever criteria are
left out and whether or not a limit follows.

Both stores are given the same events at the same times. The database refuses
some of them: an event whose maps have no JSON, or with a text that it does not
take. Of those that it took it gives back the same, but for the identifier,
which each store draws itself, the time, which is in microseconds, and the
values of the diff, which are what JSON makes of them (`GivenBack`). Events are
recorded at times that differ at the precision of the database, so the order by
time is the order of recording.
-/

namespace Vexil.Server

open Vexil.Lib PostgresStore

/-! ## What the conditions say -/

section
variable [Postgres]

/-- The next parameter is free, and under the arguments so far, with others to
follow, the conditions say `P`. -/
structure Means (b : QueryBuilder) (P : AuditRow → Bool) : Prop where
  next : b.argN = b.args.length + 1
  params : b.conds.map Sql.Cond.param = List.range' 1 b.args.length
  meaning : ∀ rest row,
    b.conds.all (Sql.Cond.holds AuditRow.read (b.args ++ rest) row) = P row

omit [Postgres] in
theorem means_empty : Means {} fun _ => true := ⟨rfl, rfl, fun _ _ => rfl⟩

omit [Postgres] in
theorem argument_append (args rest : List Sql.Value) (arg : Sql.Value) :
    Sql.argument (args ++ arg :: rest) (args.length + 1) = some arg := by
  rw [Sql.argument, Nat.add_sub_cancel, List.getElem?_append_right (by simp)]
  simp

omit [Postgres] in
/-- One more criterion. -/
theorem Means.filter {b : QueryBuilder} {P : AuditRow → Bool} (h : Means b P)
    (column : AuditColumn) (op : Sql.Comparison) (arg : Option Sql.Value) :
    Means (b.filter column op arg) fun row => P row &&
      arg.all fun v => (row.read column).any fun u => op.test u v := by
  cases arg with
  | none => simpa [QueryBuilder.filter] using h
  | some arg =>
      constructor
      · rw [QueryBuilder.filter, List.length_append]
        show b.argN + 1 = _
        rw [h.next]
        rfl
      · rw [QueryBuilder.filter, List.map_append, h.params, List.length_append]
        show List.range' 1 _ ++ [b.argN] = List.range' 1 (_ + 1)
        rw [List.range'_concat, h.next, Nat.one_mul, Nat.add_comm]
      · intro rest row
        show (b.conds ++ [_]).all (Sql.Cond.holds AuditRow.read
          (b.args ++ [arg] ++ rest) row) = _
        rw [List.append_assoc, List.all_append, h.meaning]
        congr 1
        simp only [List.all_cons, List.all_nil, Bool.and_true, Option.all_some,
          Sql.Cond.holds, h.next, List.singleton_append, argument_append]
        cases row.read column <;> rfl

/-- The criteria of a filter, as the query puts them to a row. -/
def rowMatches (filter : AuditFilter) (row : AuditRow) : Bool :=
  (filter.resource = "" ∨ row.resource = filter.resource) ∧
  (filter.resourceId = "" ∨ row.resourceId = filter.resourceId) ∧
  (filter.action = "" ∨ row.action = filter.action) ∧
  (filter.cluster = "" ∨ row.cluster = some filter.cluster) ∧
  (filter.actor = "" ∨ row.actor = filter.actor) ∧
  filter.since.all fun since =>
    (Postgres.timestamptz since).getD 0 ≤ row.timestamp

omit [Postgres] in
/-- A criterion on a text column, which may be `NULL`. -/
theorem criterion_all (c : String) (o : Option String) :
    ((criterion c).all fun v => (o.map Sql.Value.text).any fun u =>
      Sql.Comparison.eq.test u v) = decide (c = "" ∨ o = some c) := by
  rw [criterion]
  by_cases hc : c = ""
  · simp [hc]
  · rw [if_pos hc]
    cases o with
    | none => simp [hc]
    | some u => simp [hc, Sql.Comparison.test]

theorem means_auditConds (filter : AuditFilter) :
    Means (auditConds filter) (rowMatches filter) := by
  have h := (((((means_empty.filter .resource .eq (criterion filter.resource)
    ).filter .resourceId .eq (criterion filter.resourceId)
    ).filter .action .eq (criterion filter.action)
    ).filter .cluster .eq (criterion filter.cluster)
    ).filter .actor .eq (criterion filter.actor)
    ).filter .timestamp .ge (filter.since.map fun t =>
      .time ((Postgres.timestamptz t).getD 0))
  refine ⟨h.next, h.params, fun rest row => (h.meaning rest row).trans ?_⟩
  have hsince : ((filter.since.map fun t =>
      Sql.Value.time ((Postgres.timestamptz t).getD 0)).all
      fun v => (row.read .timestamp).any fun u =>
        Sql.Comparison.ge.test u v) =
      filter.since.all fun since =>
        (Postgres.timestamptz since).getD 0 ≤ row.timestamp := by
    cases filter.since with
    | none => rfl
    | some since =>
        simp only [Option.map_some, Option.all_some, AuditRow.read,
          Option.any_some, Sql.Comparison.test, Sql.Value.lt,
          Sql.Value.time.injEq]
        rw [decide_eq_decide, decide_eq_true_eq]
        omega
  have hresource := criterion_all filter.resource (some row.resource)
  have hresourceId := criterion_all filter.resourceId (some row.resourceId)
  have haction := criterion_all filter.action (some row.action)
  have hcluster := criterion_all filter.cluster row.cluster
  have hactor := criterion_all filter.actor (some row.actor)
  simp only [Option.map_some, Option.some.injEq] at hresource hresourceId
  simp only [Option.map_some, Option.some.injEq] at haction hactor
  rw [hsince, AuditRow.read, AuditRow.read, AuditRow.read, AuditRow.read,
    AuditRow.read, hresource, hresourceId, haction, hcluster, hactor]
  simp only [rowMatches, Bool.true_and, Bool.decide_and, Bool.decide_coe,
    Bool.and_assoc]

/-! ## The whole query -/

/-- The first `limit` events, all of them if it is not positive. -/
def limited {α : Type} (limit : Int) (l : List α) : List α :=
  if limit > 0 then l.take limit.toNat else l

theorem bound_auditQuery (filter : AuditFilter) :
    (auditQuery filter).1.Bound (auditQuery filter).2 := by
  have h := means_auditConds filter
  intro k
  rw [auditQuery, Sql.Select.params]
  split
  · simp only [h.params, h.next, Option.toList_some, List.mem_append,
      List.mem_range'_1, List.mem_singleton, List.length_append,
      List.length_singleton]
    omega
  · simp only [h.params, Option.toList_none, List.append_nil,
      List.mem_range'_1]
    omega

theorem passing_auditQuery (filter : AuditFilter) (rows : List AuditRow) :
    (auditQuery filter).1.passing AuditRow.read (auditQuery filter).2 rows =
      rows.filter (rowMatches filter) := by
  have h := means_auditConds filter
  rw [Sql.Select.passing]
  refine List.filter_congr fun row _ => ?_
  rw [auditQuery]
  split
  · exact h.meaning [.int filter.limit] row
  · have hmeaning := h.meaning [] row
    rwa [List.append_nil] at hmeaning

theorem cut_auditQuery (filter : AuditFilter) (rows : List AuditRow) :
    (auditQuery filter).1.cut (auditQuery filter).2 rows =
      limited filter.limit rows := by
  have h := means_auditConds filter
  by_cases hlimit : filter.limit > 0
  · rw [Sql.Select.cut, limited, auditQuery, if_pos hlimit, if_pos hlimit]
    simp only [Option.bind_some, h.next, argument_append]
  · rw [Sql.Select.cut, limited, auditQuery, if_neg hlimit, if_neg hlimit]
    rfl

theorem inOrder_auditQuery {filter : AuditFilter} {a b : AuditRow} :
    (auditQuery filter).1.InOrder AuditRow.read a b ↔
      b.timestamp ≤ a.timestamp := by
  have hcolumn : (auditQuery filter).1.orderDesc = .timestamp := by
    rw [auditQuery]
    split <;> rfl
  simp [Sql.Select.InOrder, hcolumn, AuditRow.read, Sql.Value.lt]

/-- Of rows whose times go up, the query gives those that match from the last
to the first, up to the limit. -/
theorem answers_auditQuery {filter : AuditFilter} {rows result : List AuditRow}
    (hrows : rows.Pairwise fun a b => a.timestamp < b.timestamp) :
    (auditQuery filter).1.Answers AuditRow.read (auditQuery filter).2 rows
      result ↔ result =
        limited filter.limit (rows.filter (rowMatches filter)).reverse := by
  have hperm : (rows.filter (rowMatches filter)).reverse.Perm
      ((auditQuery filter).1.passing AuditRow.read (auditQuery filter).2
        rows) := by
    rw [passing_auditQuery]
    exact List.reverse_perm _
  rw [Sql.Select.answers_iff (bound_auditQuery filter) hperm, cut_auditQuery]
  rw [List.pairwise_reverse]
  refine (hrows.filter _).imp fun hab => ?_
  rw [inOrder_auditQuery, inOrder_auditQuery]
  omega

end

/-! ## The same events in both stores -/

/-- A call of `RecordAudit`, when it came, and the identifiers that the event
gets. -/
structure AuditRecord where
  event : AuditEvent
  now : Nat
  uuid : String
  rowId : String

def memoryAfter (calls : List AuditRecord) : MemoryStore :=
  calls.foldl (fun s c => s.recordAudit c.uuid c.now c.event) .new

def AuditRecord.stored (c : AuditRecord) : AuditEvent :=
  { c.event with
    id := c.uuid
    timestamp := c.now }

theorem events_memoryAfter (calls : List AuditRecord) :
    (memoryAfter calls).events = calls.map AuditRecord.stored := by
  induction calls using List.reverseRecOn with
  | nil => rfl
  | append_singleton calls c ih =>
      rw [memoryAfter, List.foldl_append, List.map_append, ← ih]
      rfl

section
variable [Postgres]

def postgresAfter (calls : List AuditRecord) : PostgresStore :=
  calls.foldl (fun s c => (s.recordAudit c.rowId c.now c.event).2) {}

/-- The database takes the event: `RecordAudit` returns nil. -/
def AuditEvent.taken (event : AuditEvent) : Bool :=
  (({} : PostgresStore).recordAudit "" 0 event).1.isOk

def AuditRecord.taken (c : AuditRecord) : Bool := c.event.taken

/-- The row that the call adds. -/
def AuditRecord.row? (c : AuditRecord) : Option AuditRow :=
  match marshalMap id c.event.diff,
    marshalMap marshalString c.event.metadata with
  | .ok diffJSON, .ok metaJSON =>
      auditRow c.rowId c.now c.event diffJSON metaJSON
  | _, _ => none

/-- What a call of `RecordAudit` returns and adds. -/
theorem recordAudit_row? (s : PostgresStore) (c : AuditRecord) :
    (s.recordAudit c.rowId c.now c.event).1.isOk = c.row?.isSome ∧
      (s.recordAudit c.rowId c.now c.event).2 =
        { s with auditEvents := s.auditEvents ++ c.row?.toList } := by
  have hsame : s = { s with auditEvents := s.auditEvents ++ [] } := by
    rw [List.append_nil]
  unfold PostgresStore.recordAudit AuditRecord.row?
  split
  · next hdiff =>
      rw [hdiff]
      exact ⟨rfl, hsame⟩
  · next hdiff hmeta =>
      rw [hdiff, hmeta]
      exact ⟨rfl, hsame⟩
  · next hdiff hmeta =>
      rw [hdiff, hmeta]
      dsimp only
      split
      · next hrow =>
          rw [hrow]
          exact ⟨rfl, hsame⟩
      · next hrow =>
          rw [hrow]
          exact ⟨rfl, rfl⟩

/-- The columns take the texts, and the indexes too. -/
def TakesTexts (event : AuditEvent) : Prop :=
  [event.actor, event.action, event.resource, event.resourceId,
    event.cluster].all Postgres.takes = true ∧
  [[event.resource, event.resourceId], [event.cluster],
    [event.action]].all Postgres.indexes = true

/-- The maps have JSON, and the database takes it and the texts. -/
def TakesEvent (event : AuditEvent) : Prop :=
  TakesTexts event ∧ ∃ diffJSON metaJSON,
    marshalMap id event.diff = .ok diffJSON ∧
    marshalMap marshalString event.metadata = .ok metaJSON ∧
    Postgres.jsonb diffJSON ≠ none ∧ Postgres.jsonb metaJSON ≠ none

theorem isSome_auditRow {uuid : String} {now : Nat} {event : AuditEvent}
    {diffJSON metaJSON : JsonValue} :
    (auditRow uuid now event diffJSON metaJSON).isSome = true ↔
      TakesTexts event ∧ Postgres.jsonb diffJSON ≠ none ∧
        Postgres.jsonb metaJSON ≠ none := by
  unfold auditRow
  split
  · next htexts =>
      cases hdiff : Postgres.jsonb diffJSON with
      | none => simp
      | some diff =>
          cases hmeta : Postgres.jsonb metaJSON with
          | none => simp
          | some metadata =>
              simp only [Option.isSome_some, ne_eq, reduceCtorEq,
                not_false_eq_true, and_true, true_iff]
              exact htexts
  · next htexts =>
      simp only [Option.isSome_none, Bool.false_eq_true, false_iff, not_and]
      exact fun h => absurd h htexts

theorem isSome_row? {c : AuditRecord} :
    c.row?.isSome = true ↔ TakesEvent c.event := by
  unfold AuditRecord.row? TakesEvent
  split
  · next diffJSON metaJSON hdiff hmeta =>
      rw [isSome_auditRow, hdiff, hmeta]
      simp only [Except.ok.injEq, exists_and_left, exists_eq_left']
  · next hne =>
      refine iff_of_false Bool.false_ne_true ?_
      rintro ⟨_, diffJSON, metaJSON, hdiff, hmeta, _⟩
      exact hne diffJSON metaJSON hdiff hmeta

/-- Whether an event is taken has nothing to do with the others, with the clock
or with identifiers. -/
theorem taken_iff {c : AuditRecord} : c.taken = true ↔ TakesEvent c.event := by
  rw [← isSome_row? (c := ⟨c.event, 0, "", ""⟩)]
  exact iff_of_eq (congrArg (· = true)
    (recordAudit_row? {} ⟨c.event, 0, "", ""⟩).1)

theorem taken_eq (c : AuditRecord) : c.taken = c.row?.isSome :=
  Bool.eq_iff_iff.mpr (taken_iff.trans isSome_row?.symm)

theorem isOk_recordAudit (s : PostgresStore) (c : AuditRecord) :
    (s.recordAudit c.rowId c.now c.event).1.isOk = true ↔
      TakesEvent c.event := by
  rw [(recordAudit_row? s c).1, isSome_row?]

theorem auditEvents_postgresAfter (calls : List AuditRecord) :
    (postgresAfter calls).auditEvents = calls.filterMap AuditRecord.row? := by
  induction calls using List.reverseRecOn with
  | nil => rfl
  | append_singleton calls c ih =>
      rw [postgresAfter, List.foldl_append, List.filterMap_append, ← ih,
        List.foldl_cons, List.foldl_nil, (recordAudit_row? _ c).2]
      refine congrArg (_ ++ ·) ?_
      cases hrow : c.row? with
      | none => rw [List.filterMap_cons_none hrow]; rfl
      | some row => rw [List.filterMap_cons_some hrow]; rfl

/-! ## What is given back of an event -/

/-- A value of a diff, read back: what JSON makes of it. -/
def reread (v : Dynamic) : Option Dynamic :=
  (v.toOption.bind Postgres.jsonb).map .ok

/-- The same keys, with what JSON makes of their values. -/
def DiffGivenBack : Option (GoMap Dynamic) → Option (GoMap Dynamic) → Prop
  | none, none => True
  | some m, some m' => ∀ k, m'.lookup k = (m.lookup k).bind reread ∧
      (m'.lookup k).isSome = (m.lookup k).isSome
  | _, _ => False

/-- The event `e`, as the database gives it back. -/
structure GivenBack (e e' : AuditEvent) : Prop where
  timestamp : e'.timestamp = micros e.timestamp * 1000
  actor : e'.actor = e.actor
  action : e'.action = e.action
  resource : e'.resource = e.resource
  resourceId : e'.resourceId = e.resourceId
  cluster : e'.cluster = e.cluster
  metadata : e'.metadata = e.metadata
  diff : DiffGivenBack e.diff e'.diff

/-- A map of strings comes back as it was. -/
theorem metadata_reread {metadata : Option (GoMap String)}
    {doc doc' : JsonValue} (hdoc : marshalMap marshalString metadata = .ok doc)
    (hstored : Postgres.jsonb doc = some doc') :
    unmarshalMap stringOf doc' = metadata := by
  cases metadata with
  | none =>
      cases hdoc
      rw [Postgres.jsonb_null] at hstored
      cases hstored
      rfl
  | some m =>
      obtain ⟨ms, rfl, _, hmember⟩ := member_marshalMap hdoc
      obtain ⟨ms', rfl, hkeeps⟩ := Postgres.jsonb_object ms doc' hstored
      obtain ⟨m', hm', hlookup⟩ := lookup_unmarshalMap hdoc hkeeps stringOf
      rw [hm']
      refine congrArg some (Finmap.ext_lookup fun k => ?_)
      rw [hlookup]
      cases hv : m.lookup k with
      | none => rfl
      | some v =>
          have hin := (hmember k).1
          rw [hv] at hin
          obtain ⟨text, htext⟩ := Option.ne_none_iff_exists'.mp
            ((hkeeps (.ofString k)).1 _ hin)
          have hsame := Postgres.jsonb_string _ _ htext
          subst hsame
          show ((Postgres.jsonb _).map stringOf) = _
          rw [htext, Option.map_some, stringOf, goText_ofString]

/-- A diff comes back with what JSON makes of its values. -/
theorem diff_reread {diff : Option (GoMap Dynamic)} {doc doc' : JsonValue}
    (hdoc : marshalMap id diff = .ok doc)
    (hstored : Postgres.jsonb doc = some doc') :
    DiffGivenBack diff (unmarshalMap .ok doc') := by
  cases diff with
  | none =>
      cases hdoc
      rw [Postgres.jsonb_null] at hstored
      cases hstored
      trivial
  | some m =>
      obtain ⟨ms, rfl, _, hmember⟩ := member_marshalMap hdoc
      obtain ⟨ms', rfl, hkeeps⟩ := Postgres.jsonb_object ms doc' hstored
      obtain ⟨m', hm', hlookup⟩ := lookup_unmarshalMap hdoc hkeeps
        (.ok : JsonValue → Dynamic)
      rw [hm']
      intro k
      rw [hlookup]
      cases hv : m.lookup k with
      | none => exact ⟨rfl, rfl⟩
      | some v =>
          have hin := (hmember k).1
          rw [hv] at hin
          obtain ⟨stored, hkept⟩ := Option.ne_none_iff_exists'.mp
            ((hkeeps (.ofString k)).1 _ hin)
          have hok : v = .ok (documentOf id v) := (hmember k).2 v hv
          refine ⟨?_, ?_⟩
          · rw [Option.bind_some, Option.bind_some, reread, hok]
            rfl
          · rw [Option.bind_some, hkept]
            rfl

/-- The row of an event has its columns. -/
theorem auditRow_some {uuid : String} {now : Nat} {event : AuditEvent}
    {diffJSON metaJSON : JsonValue} {row : AuditRow}
    (h : auditRow uuid now event diffJSON metaJSON = some row) :
    ∃ diff metadata, Postgres.jsonb diffJSON = some diff ∧
      Postgres.jsonb metaJSON = some metadata ∧
      row = ⟨uuid, micros now, event.actor, event.action, event.resource,
        event.resourceId, some event.cluster, some diff, some metadata⟩ := by
  unfold auditRow at h
  split at h
  · split at h
    · next diff metadata hdiff hmeta =>
        cases h
        exact ⟨diff, metadata, hdiff, hmeta, rfl⟩
    · cases h
  · cases h

theorem row?_some {c : AuditRecord} {row : AuditRow}
    (h : c.row? = some row) : GivenBack c.stored (scanEvent row) ∧
      row.timestamp = micros c.now ∧ row.cluster = some c.event.cluster := by
  unfold AuditRecord.row? at h
  split at h
  · next diffJSON metaJSON hdiff hmeta =>
      obtain ⟨diff, metadata, hstoredDiff, hstoredMeta, rfl⟩ := auditRow_some h
      exact ⟨⟨rfl, rfl, rfl, rfl, rfl, rfl, metadata_reread hmeta hstoredMeta,
        diff_reread hdiff hstoredDiff⟩, rfl, rfl⟩
  · cases h

/-- The database rounds a time that it can have to itself. -/
theorem timestamptz_exact {n u : Nat}
    (h : Postgres.timestamptz (1000 * n) = some u) : u = n := by
  have hnear := Postgres.near _ _ h
  omega

theorem rowMatches_row {filter : AuditFilter}
    (hsince : ∀ since ∈ filter.since, 1000 ∣ since)
    (htakes : takesFilter filter = true) {c : AuditRecord} {row : AuditRow}
    (hrow : c.row? = some row) :
    rowMatches filter row = MemoryStore.keeps filter c.stored := by
  obtain ⟨hback, htimestamp, hcluster⟩ := row?_some hrow
  have htime : (filter.since.all fun since =>
        (Postgres.timestamptz since).getD 0 ≤ micros c.now) =
      filter.since.all fun since => ¬c.now < since := by
    cases hs : filter.since with
    | none => rfl
    | some since =>
        obtain ⟨n, rfl⟩ := hsince since hs
        have hrange := (decide_eq_true_iff.mp htakes).2
        rw [hs, Option.all_some, Option.isSome_iff_exists] at hrange
        obtain ⟨u, hu⟩ := hrange
        obtain rfl := timestamptz_exact hu
        refine decide_eq_decide.mpr ?_
        rw [hu, Option.getD_some, micros]
        omega
  have hactor : row.actor = c.event.actor := hback.actor
  have haction : row.action = c.event.action := hback.action
  have hresource : row.resource = c.event.resource := hback.resource
  have hresourceId : row.resourceId = c.event.resourceId := hback.resourceId
  rw [rowMatches, MemoryStore.keeps, AuditRecord.stored, htimestamp, htime,
    hcluster, hactor, haction, hresource, hresourceId]
  simp only [Option.some.injEq]

end

/-! ## The stores agree -/

/-- The events that meet every criterion the filter has. -/
def MatchesFilter (filter : AuditFilter) (e : AuditEvent) : Prop :=
  (filter.resource ≠ "" → e.resource = filter.resource) ∧
  (filter.resourceId ≠ "" → e.resourceId = filter.resourceId) ∧
  (filter.action ≠ "" → e.action = filter.action) ∧
  (filter.cluster ≠ "" → e.cluster = filter.cluster) ∧
  (filter.actor ≠ "" → e.actor = filter.actor) ∧
  ∀ since ∈ filter.since, since ≤ e.timestamp

theorem keeps_iff {filter : AuditFilter} {e : AuditEvent} :
    MemoryStore.keeps filter e = true ↔ MatchesFilter filter e := by
  have hcriterion : ∀ c v : String, (c = "" ∨ v = c) ↔ (c ≠ "" → v = c) :=
    fun c v => or_iff_not_imp_left
  have hsince : (filter.since.all fun since => ¬e.timestamp < since) = true ↔
      ∀ since ∈ filter.since, since ≤ e.timestamp := by
    cases filter.since with
    | none => simp
    | some since => simp
  rw [MemoryStore.keeps, decide_eq_true_eq, hsince, MatchesFilter]
  simp only [hcriterion]

/-- Newest first, these are the matching events among `events`. -/
structure NewestFirst (filter : AuditFilter) (events newest : List AuditEvent) :
    Prop where
  matching : ∀ e, e ∈ newest ↔ e ∈ events ∧ MatchesFilter filter e
  order : newest.Pairwise fun a b => b.timestamp < a.timestamp

/-- To cut what is no longer than the limit changes nothing. -/
theorem listAuditEvents_eq (s : MemoryStore) (filter : AuditFilter) :
    s.listAuditEvents filter = limited filter.limit
      (s.events.filter (MemoryStore.keeps filter)).reverse := by
  rw [MemoryStore.listAuditEvents, limited]
  by_cases hpos : filter.limit > 0
  · rw [if_pos hpos]
    split
    · rfl
    · next h =>
        rw [List.take_of_length_le]
        omega
  · rw [if_neg hpos, if_neg fun h => hpos h.1]

theorem newestFirst_reverse {filter : AuditFilter} {events : List AuditEvent}
    (h : events.Pairwise fun a b => a.timestamp < b.timestamp) :
    NewestFirst filter events
      (events.filter (MemoryStore.keeps filter)).reverse where
  matching e := by
    rw [List.mem_reverse, List.mem_filter, keeps_iff]
  order := List.pairwise_reverse.mpr (h.filter _)

/-- Two lists whose entries belong together, cut and turned round alike. -/
theorem forall₂_listed {α β : Type} {R : α → β → Prop} {l : List α}
    {l' : List β} {p : α → Bool} {q : β → Bool} (limit : Int)
    (hpq : ∀ a b, R a b → p a = q b) (h : List.Forall₂ R l l') :
    List.Forall₂ R (limited limit (l.filter p).reverse)
      (limited limit (l'.filter q).reverse) := by
  have hfilter : List.Forall₂ R (l.filter p) (l'.filter q) := by
    induction h with
    | nil => exact .nil
    | cons hab _ ih =>
        rw [List.filter_cons, List.filter_cons, hpq _ _ hab]
        split
        · exact .cons hab ih
        · exact ih
  have hreverse := List.rel_reverse hfilter
  rw [limited, limited]
  split
  · exact List.forall₂_take _ hreverse
  · exact hreverse

section
variable [Postgres]

/-- The events that are taken and their rows. -/
theorem forall₂_taken {filter : AuditFilter}
    (hsince : ∀ since ∈ filter.since, 1000 ∣ since)
    (htakes : takesFilter filter = true) (calls : List AuditRecord) :
    List.Forall₂ (fun e row => GivenBack e (scanEvent row) ∧
        MemoryStore.keeps filter e = rowMatches filter row)
      (memoryAfter (calls.filter AuditRecord.taken)).events
      (postgresAfter calls).auditEvents := by
  rw [events_memoryAfter, auditEvents_postgresAfter]
  induction calls with
  | nil => exact .nil
  | cons c calls ih =>
      cases hrow : c.row? with
      | none =>
          rw [List.filter_cons_of_neg (by simp [taken_eq, hrow]),
            List.filterMap_cons_none hrow]
          exact ih
      | some row =>
          rw [List.filter_cons_of_pos (by simp [taken_eq, hrow]),
            List.filterMap_cons_some hrow]
          exact .cons ⟨(row?_some hrow).1,
            (rowMatches_row hsince htakes hrow).symm⟩ ih

end

/-- Two events of one flag and one of another, with a diff. -/
def auditCalls : List AuditRecord :=
  [⟨{ action := "create", resource := "featureflag", resourceId := "default/a"
      cluster := "eu" }, 1000, "u1", "r1"⟩,
    ⟨{ action := "create", resource := "featureflag", resourceId := "default/b"
       cluster := "eu" }, 2500, "u2", "r2"⟩,
    ⟨{ action := "toggle", resource := "featureflag", resourceId := "default/a"
       cluster := "eu"
       diff := some (GoMap.single "value" (.ok (.bool true))) },
      3999, "u3", "r3"⟩]

def auditSample : AuditFilter :=
  { resourceId := "default/a", cluster := "eu", since := some 1000, limit := 1 }

example : ((memoryAfter auditCalls).listAuditEvents auditSample).map
    AuditEvent.id = ["u3"] := by decide

/-- An event with a NUL in its actor. -/
def nulCalls : List AuditRecord :=
  [⟨{ action := "create", resource := "featureflag", resourceId := "default/a"
      actor := "ana" }, 1000, "u1", "r1"⟩,
    ⟨{ action := "toggle", resource := "featureflag", resourceId := "default/a"
       actor := String.singleton (Char.ofNat 0) }, 2000, "u2", "r2"⟩]

end Vexil.Server
