import Vexil.Lib.JsonMap
import Vexil.Lib.Sql
import Vexil.Server.Store

/-!
# The store in PostgreSQL

`store/postgres.go` over the tables of `store/migrations`. The methods are the
statements they run; what a statement does is in `Lib.Sql`. A row has the values
the statement gives and the defaults of the other columns: an identifier that
the server generates, and for an audit event the time of the transaction. Only
`created_at` of events and of sessions is left out, which nothing reads.

A statement fails, and changes nothing, if the database refuses one of its
arguments (`Postgres`). The clock is in nanoseconds, as Go's is, and the
database has microseconds: `NOW()` is cut, and a time that is given is rounded.
-/

namespace Vexil.Server

open Vexil.Lib

/-! ## What the database takes -/

/-- What PostgreSQL does with the values that it is given. -/
class Postgres where
  /-- A `TEXT` takes the text: it is UTF-8, without a NUL. -/
  takes : String → Bool
  /-- The values are not too long for an entry of an index. -/
  indexes : List String → Bool
  /-- A document as it comes back from a `JSONB` into an `interface{}`: with the
  last member under each key, and numbers as a `float64` has them. There is none
  if it is refused. -/
  jsonb : JsonValue → Option JsonValue
  /-- The microsecond nearest to a time that is in the range. -/
  timestamptz : Nat → Option Nat
  /-- The error of a statement that is refused. -/
  refusal : String
  jsonb_null : jsonb .null = some .null
  jsonb_string : ∀ s doc, jsonb (.string s) = some doc → doc = .string s
  jsonb_object : ∀ ms doc, jsonb (.object ms) = some doc →
    ∃ ms', doc = .object ms' ∧ Keeps jsonb ms ms'
  near : ∀ t u, timestamptz t = some u → 1000 * u ≤ t + 500 ∧ t ≤ 1000 * u + 500

/-- `NOW()`. -/
def micros (t : Nat) : Nat := t / 1000

/-! ## The tables -/

/-- A row of `audit_events`. -/
structure AuditRow where
  id : String
  timestamp : Nat
  actor : String
  action : String
  resource : String
  resourceId : String
  cluster : Option String
  diff : Option JsonValue
  metadata : Option JsonValue
  deriving DecidableEq

inductive AuditColumn where
  | timestamp | actor | action | resource | resourceId | cluster
  deriving DecidableEq

def AuditRow.read (r : AuditRow) : AuditColumn → Option Sql.Value
  | .timestamp => some (.time r.timestamp)
  | .actor => some (.text r.actor)
  | .action => some (.text r.action)
  | .resource => some (.text r.resource)
  | .resourceId => some (.text r.resourceId)
  | .cluster => r.cluster.map .text

/-- A row of `users`. -/
structure UserRow where
  id : String
  username : String
  passwordHash : String
  role : String
  createdAt : Nat
  deriving DecidableEq

/-- A row of `sessions`. -/
structure SessionRow where
  token : String
  username : String
  role : String
  expiresAt : Nat
  deriving DecidableEq

/-- `PostgresStore`: the database behind it. The username and the token are
unique. -/
structure PostgresStore where
  auditEvents : List AuditRow := []
  users : Table UserRow.username := .empty
  sessions : Table SessionRow.token := .empty

namespace PostgresStore

variable [Postgres]

/-! ## Audit -/

/-- `json.Marshal` of a string. -/
def marshalString (s : String) : Except String JsonValue :=
  .ok (.string (.ofString s))

/-- A value of a `map[string]string`, whatever there is in the document. -/
def stringOf : JsonValue → String
  | .string s => goText s
  | _ => ""

/-- The row of an event, if it is not refused. -/
def auditRow (uuid : String) (now : Nat) (event : AuditEvent)
    (diffJSON metaJSON : JsonValue) : Option AuditRow :=
  if ([event.actor, event.action, event.resource, event.resourceId,
        event.cluster].all Postgres.takes) ∧
      ([[event.resource, event.resourceId], [event.cluster],
        [event.action]].all Postgres.indexes) then
    match Postgres.jsonb diffJSON, Postgres.jsonb metaJSON with
    | some diff, some metadata => some {
        id := uuid
        timestamp := micros now
        actor := event.actor
        action := event.action
        resource := event.resource
        resourceId := event.resourceId
        cluster := some event.cluster
        diff := some diff
        metadata := some metadata }
    | _, _ => none
  else none

/-- `RecordAudit` in a transaction that starts at `now`. -/
def recordAudit (s : PostgresStore) (uuid : String) (now : Nat)
    (event : AuditEvent) : Except String Unit × PostgresStore :=
  match marshalMap id event.diff, marshalMap marshalString event.metadata with
  | .error err, _ => (.error err, s)
  | .ok _, .error err => (.error err, s)
  | .ok diffJSON, .ok metaJSON =>
      match auditRow uuid now event diffJSON metaJSON with
      | none => (.error Postgres.refusal, s)
      | some row => (.ok (), { s with auditEvents := s.auditEvents ++ [row] })

/-- A query under construction: the conditions so far, their arguments, and the
number of the next parameter. -/
structure QueryBuilder where
  conds : List (Sql.Cond AuditColumn) := []
  args : List Sql.Value := []
  argN : Nat := 1

/-- `query += " AND column op $argN"`, if the criterion is given. -/
def QueryBuilder.filter (b : QueryBuilder) (column : AuditColumn)
    (op : Sql.Comparison) (arg : Option Sql.Value) : QueryBuilder :=
  match arg with
  | none => b
  | some arg =>
      { conds := b.conds ++ [⟨column, op, b.argN⟩]
        args := b.args ++ [arg]
        argN := b.argN + 1 }

/-- A criterion of a filter: `""` is none. -/
def criterion (s : String) : Option Sql.Value :=
  if s ≠ "" then some (.text s) else none

/-- The conditions of `ListAuditEvents`. -/
def auditConds (filter : AuditFilter) : QueryBuilder :=
  let b : QueryBuilder := {}
  let b := b.filter .resource .eq (criterion filter.resource)
  let b := b.filter .resourceId .eq (criterion filter.resourceId)
  let b := b.filter .action .eq (criterion filter.action)
  let b := b.filter .cluster .eq (criterion filter.cluster)
  let b := b.filter .actor .eq (criterion filter.actor)
  b.filter .timestamp .ge (filter.since.map fun t =>
    .time ((Postgres.timestamptz t).getD 0))

/-- The query of `ListAuditEvents` and its arguments. -/
def auditQuery (filter : AuditFilter) :
    Sql.Select AuditColumn × List Sql.Value :=
  let b := auditConds filter
  if filter.limit > 0 then
    ({ conds := b.conds, orderDesc := .timestamp, limit := some b.argN },
      b.args ++ [.int filter.limit])
  else ({ conds := b.conds, orderDesc := .timestamp }, b.args)

/-- The database takes the arguments of the query. -/
def takesFilter (filter : AuditFilter) : Bool :=
  ((auditQuery filter).2.all fun
    | .text s => Postgres.takes s
    | .time _ | .int _ => true) ∧
  filter.since.all fun t => (Postgres.timestamptz t).isSome

/-- `rows.Scan` into an `AuditEvent`, and the maps of its documents. -/
def scanEvent (r : AuditRow) : AuditEvent where
  id := r.id
  timestamp := r.timestamp * 1000
  actor := r.actor
  action := r.action
  resource := r.resource
  resourceId := r.resourceId
  cluster := r.cluster.getD ""
  diff := r.diff.bind (unmarshalMap .ok)
  metadata := r.metadata.bind (unmarshalMap stringOf)

/-- `ListAuditEvents` may return `r`. -/
def ListsAuditEvents (s : PostgresStore) (filter : AuditFilter)
    (r : Except String (List AuditEvent)) : Prop :=
  if takesFilter filter then
    ∃ rows, (auditQuery filter).1.Answers AuditRow.read (auditQuery filter).2
      s.auditEvents rows ∧ r = .ok (rows.map scanEvent)
  else r = .error Postgres.refusal

/-! ## Users -/

/-- The `User` of a row. -/
def scanUser (r : UserRow) : User where
  id := r.id
  username := r.username
  passwordHash := r.passwordHash
  role := r.role
  createdAt := some r.createdAt

def getUserByUsername (s : PostgresStore) (username : String) :
    Except String User :=
  if Postgres.takes username then
    match Sql.queryRow s.users fun r => r.username = username with
    | none => .error ("user not found: " ++ username)
    | some r => .ok (scanUser r)
  else .error Postgres.refusal

/-- What `checkRowAffected` makes of a number of rows. -/
def checkRowAffected (n : Nat) (username : String) : Except String Unit :=
  if n = 0 then .error ("user not found: " ++ username) else .ok ()

def updatePassword (s : PostgresStore) (username passwordHash : String) :
    Except String Unit × PostgresStore :=
  if [passwordHash, username].all Postgres.takes then
    let r := Sql.update s.users username
      (fun u => { u with passwordHash := passwordHash }) fun _ => rfl
    (checkRowAffected r.1 username, { s with users := r.2 })
  else (.error Postgres.refusal, s)

/-- The error of an `INSERT` of a name that is there. -/
def duplicateKey : String :=
  "pq: duplicate key value violates unique constraint " ++
    "\"users_username_key\""

/-- The `INSERT` of `CreateUser`. -/
def insertUser (s : PostgresStore) (row : UserRow) :
    Except String PostgresStore :=
  if [row.username, row.passwordHash, row.role].all Postgres.takes then
    match Sql.insert s.users row with
    | none => .error duplicateKey
    | some users =>
        if Postgres.indexes [row.username] then .ok { s with users := users }
        else .error Postgres.refusal
  else .error Postgres.refusal

/-- The row has the identifier `uuid` and is created at `now`. -/
def createUser (s : PostgresStore) (uuid : String) (now : Nat) (user : User) :
    Except String Unit × PostgresStore :=
  match s.insertUser {
      id := uuid
      username := user.username
      passwordHash := user.passwordHash
      role := user.role
      createdAt := micros now } with
  | .ok s' => (.ok (), s')
  | .error err =>
      if contains err "duplicate key" then
        (.error ("user already exists: " ++ user.username), s)
      else (.error err, s)

def deleteUser (s : PostgresStore) (username : String) :
    Except String Unit × PostgresStore :=
  if Postgres.takes username then
    let r := Sql.delete s.users username
    (checkRowAffected r.1 username, { s with users := r.2 })
  else (.error Postgres.refusal, s)

def updateUserRole (s : PostgresStore) (username role : String) :
    Except String Unit × PostgresStore :=
  if [role, username].all Postgres.takes then
    let r := Sql.update s.users username
      (fun u => { u with role := role }) fun _ => rfl
    (checkRowAffected r.1 username, { s with users := r.2 })
  else (.error Postgres.refusal, s)

/-! ## Sessions -/

/-- The row of a session, if it is not refused. -/
def sessionRow (token username role : String) (expiresAt : Nat) :
    Option SessionRow :=
  if ([token, username, role].all Postgres.takes) ∧
      Postgres.indexes [token] then
    (Postgres.timestamptz expiresAt).map fun t => ⟨token, username, role, t⟩
  else none

def createSession (s : PostgresStore) (token username role : String)
    (expiresAt : Nat) : Except String Unit × PostgresStore :=
  match sessionRow token username role expiresAt with
  | none => (.error Postgres.refusal, s)
  | some row => (.ok (), { s with
      sessions := Sql.upsert s.sessions row
        (fun r => { r with
          username := row.username
          role := row.role
          expiresAt := row.expiresAt }) fun _ => rfl })

/-- The row has to expire after `NOW()`; an error is no session. -/
def getSession (s : PostgresStore) (now : Nat) (token : String) :
    Option (String × String) :=
  if Postgres.takes token then
    match Sql.queryRow s.sessions fun r =>
        r.token = token ∧ r.expiresAt > micros now with
    | none => none
    | some r => some (r.username, r.role)
  else none

def deleteSession (s : PostgresStore) (token : String) :
    Except String Unit × PostgresStore :=
  if Postgres.takes token then
    (.ok (), { s with sessions := (Sql.delete s.sessions token).2 })
  else (.error Postgres.refusal, s)

end PostgresStore

/-! ## A database with no other limits -/

/-- A text that a `JSONB` takes. -/
def plainText (s : JsonText) : Bool :=
  s.all fun
    | .scalar c => c ≠ Char.ofNat 0
    | .surrogate _ => false

mutual

def plainDocument : JsonValue → Bool
  | .string s => plainText s
  | .array vs => plainElems vs
  | .object ms => plainMembers ms
  | _ => true

def plainElems : List JsonValue → Bool
  | [] => true
  | v :: vs => plainDocument v && plainElems vs

def plainMembers : List (JsonText × JsonValue) → Bool
  | [] => true
  | m :: ms => plainText m.1 && plainDocument m.2 && plainMembers ms

end

theorem plainDocument_of_mem {ms : List (JsonText × JsonValue)}
    (h : plainMembers ms = true) {m : JsonText × JsonValue} (hm : m ∈ ms) :
    plainDocument m.2 = true := by
  induction ms with
  | nil => cases hm
  | cons m' ms ih =>
      rw [plainMembers, Bool.and_eq_true, Bool.and_eq_true] at h
      rcases List.mem_cons.mp hm with rfl | hm
      · exact h.1.2
      · exact ih h.2 hm

def plainJsonb (doc : JsonValue) : Option JsonValue :=
  if plainDocument doc then some doc else none

theorem keeps_plainJsonb {ms : List (JsonText × JsonValue)}
    (h : plainMembers ms = true) : Keeps plainJsonb ms ms := by
  intro key
  have hkept : ∀ doc ∈ member ms key, plainJsonb doc = some doc := by
    intro doc hdoc
    obtain ⟨m, hm, rfl⟩ := mem_of_member hdoc
    exact if_pos (plainDocument_of_mem h hm)
  refine ⟨fun doc hdoc hnone => ?_, ?_⟩
  · rw [hkept doc hdoc] at hnone
    cases hnone
  · cases hmember : member ms key with
    | none => rfl
    | some doc => exact (hkept doc hmember).symm

@[reducible] def plainPostgres : Postgres where
  takes s := Char.ofNat 0 ∉ s.toList
  indexes texts := (String.join texts).utf8ByteSize ≤ 2600
  jsonb := plainJsonb
  timestamptz t := some ((t + 500) / 1000)
  refusal := "pq: invalid byte sequence for encoding \"UTF8\": 0x00"
  jsonb_null := rfl
  jsonb_string s doc h := by
    rw [plainJsonb] at h
    split at h
    · exact (Option.some.inj h).symm
    · cases h
  jsonb_object ms doc h := by
    rw [plainJsonb] at h
    split at h
    · next hplain =>
        exact ⟨ms, (Option.some.inj h).symm, keeps_plainJsonb hplain⟩
    · cases h
  near t u h := by
    cases h
    omega

end Vexil.Server
