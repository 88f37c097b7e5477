import Vexil.Server.Calls
import Vexil.Server.Postgres

/-!
# The server on PostgreSQL

`main` gives the server one of the two stores, and the handlers are the same
for both. Here is what each call of the store may answer when it is the
database: a listing may come in any order that its query leaves open, and
usernames are ordered by the collation of the database. A statement fails when
the database refuses one of its arguments, and for no other reason.

Everything else that a handler calls is as in `ServerStep`.
-/

namespace Vexil.Server

open Vexil.Lib Vexil.Kube

/-- How the database orders text. -/
class Collation where
  le : String → String → Bool
  total : ∀ a b, le a b || le b a
  trans : ∀ a b c, le a b → le b c → le a c

/-- Byte by byte. -/
@[reducible] def bytewise : Collation where
  le a b := a ≤ b
  total a b := by simpa using String.le_total a b
  trans a b c hab hbc := by
    simp only [decide_eq_true_eq] at *
    exact String.le_trans hab hbc

/-- `rows.Scan` of the columns that `ListUsers` asks for. -/
def PostgresStore.scanListed (r : UserRow) : User where
  id := r.id
  username := r.username
  passwordHash := ""
  role := r.role
  createdAt := some r.createdAt

/-- `ListUsers` may return `users`. -/
def PostgresStore.ListsUsers [Collation] (s : PostgresStore)
    (users : List User) : Prop :=
  ∃ rows : List UserRow, rows.Perm s.users.items ∧
    rows.Pairwise (fun a b => Collation.le a.username b.username) ∧
    users = rows.map PostgresStore.scanListed

/-- Rows of the log, newest first. -/
def AuditRow.newest (a b : AuditRow) : Bool := b.timestamp ≤ a.timestamp

section
variable [Collation] [Postgres]

/-- What a method of `PostgresStore` may answer and do at the time `now`. -/
def StoreCall.Queries (now : Nat) :
    (c : StoreCall) → PostgresStore → c.Reply → PostgresStore → Prop
  | .recordAudit event, s, r, s' =>
      ∃ uuid, (r, s') = s.recordAudit uuid now event
  | .listAuditEvents filter, s, r, s' => s.ListsAuditEvents filter r ∧ s' = s
  | .getUserByUsername username, s, r, s' =>
      r = s.getUserByUsername username ∧ s' = s
  | .updatePassword username hash, s, r, s' =>
      (r, s') = s.updatePassword username hash
  | .createUser user, s, r, s' => ∃ uuid, (r, s') = s.createUser uuid now user
  | .listUsers, s, r, s' =>
      (∃ users, s.ListsUsers users ∧ r = .ok users) ∧ s' = s
  | .deleteUser username, s, r, s' => (r, s') = s.deleteUser username
  | .updateUserRole username role, s, r, s' =>
      (r, s') = s.updateUserRole username role
  | .createSession token username role expiresAt, s, r, s' =>
      (r, s') = s.createSession token username role expiresAt
  | .getSession token, s, r, s' => r = s.getSession now token ∧ s' = s
  | .deleteSession token, s, r, s' => (r, s') = s.deleteSession token

/-- One of the answers, in which rows of the same time stand as they came. -/
def StoreCall.query (uuid : String) (now : Nat) :
    (c : StoreCall) → PostgresStore → c.Reply × PostgresStore
  | .recordAudit event, s => s.recordAudit uuid now event
  | .listAuditEvents filter, s =>
      let (q, args) := PostgresStore.auditQuery filter
      let rows := (q.passing AuditRow.read args s.auditEvents).mergeSort
        AuditRow.newest
      (if PostgresStore.takesFilter filter then
          .ok ((q.cut args rows).map PostgresStore.scanEvent)
        else .error Postgres.refusal, s)
  | .getUserByUsername username, s => (s.getUserByUsername username, s)
  | .updatePassword username hash, s => s.updatePassword username hash
  | .createUser user, s => s.createUser uuid now user
  | .listUsers, s =>
      let rows := s.users.items.mergeSort fun a b =>
        Collation.le a.username b.username
      (.ok (rows.map PostgresStore.scanListed), s)
  | .deleteUser username, s => s.deleteUser username
  | .updateUserRole username role, s => s.updateUserRole username role
  | .createSession token username role expiresAt, s =>
      s.createSession token username role expiresAt
  | .getSession token, s => (s.getSession now token, s)
  | .deleteSession token, s => s.deleteSession token

end

/-- `ServerState`, with the database for its store. -/
structure DatabaseState where
  store : PostgresStore
  clusters : Manager
  kube : Endpoint → Cluster
  now : Nat

def DatabaseState.setKube (s : DatabaseState) (client : Endpoint)
    (k : Cluster) : DatabaseState :=
  { s with kube := Function.update s.kube client k }

def DatabaseState.move (s : DatabaseState) : ServerMove → DatabaseState
  | .kube client w => s.setKube client (w.apply (s.kube client))
  | .tick now => { s with now := now }

section
variable [Bcrypt] [ClientGo] [Collation] [Postgres]

/-- What a call may answer and do. -/
def DatabaseStep (s : DatabaseState) : ServerEvent → DatabaseState → Prop
  | ⟨.store c, r⟩, s' =>
      ∃ store, c.Queries s.now s.store r store ∧ s' = { s with store := store }
  | ⟨.clusters c, r⟩, s' =>
      ∃ fault order, s.clusters.clusters.Ranges order ∧
        (c.serve fault order s.clusters).1 = r ∧
        s' = { s with clusters := (c.serve fault order s.clusters).2 }
  | ⟨.kube client c, r⟩, s' =>
      ∃ k, StaleStep (s.kube client) ⟨c, r⟩ k ∧ s' = s.setKube client k
  | ⟨.now, t⟩, s' => t = s.now ∧ s' = s
  | ⟨.randRead n, r⟩, s' => (∀ bytes, r = .ok bytes → bytes.length = n) ∧ s' = s
  | ⟨.generateFromPassword password, r⟩, s' =>
      (∃ salt, r = Bcrypt.generateFromPassword salt password) ∧ s' = s

/-- `ServerCall.serve`, with the database for the store. -/
def ServerCall.query (o : Oracle) :
    (c : ServerCall) → DatabaseState → c.Reply × DatabaseState
  | .store c, s =>
      let r := c.query o.uuid s.now s.store
      (r.1, { s with store := r.2 })
  | .clusters c, s =>
      let r := c.serve o.fault s.clusters.clusters.sortedKeys s.clusters
      (r.1, { s with clusters := r.2 })
  | .kube client c, s =>
      let r := c.serveOr o.fault (s.kube client)
      (r.1, s.setKube client r.2)
  | .now, s => (s.now, s)
  | .randRead n, s =>
      (if o.bytes.length = n then .ok o.bytes else .error "no entropy", s)
  | .generateFromPassword password, s =>
      (Bcrypt.generateFromPassword o.salt password, s)

def DatabaseSystem {ι : Type} (s : DatabaseState) :
    ServerLabel ι → DatabaseState → Prop
  | .own _ e, s' => DatabaseStep s e s'
  | .other w, s' => s' = s.move w

end

end Vexil.Server
