import Vexil.Lib.Go
import Vexil.Lib.JsonValue

/-!
# The store of the API server

`internal/apiserver/store`: the records of `interface.go` and the in-memory
implementation. Every method holds the lock for its whole body, so a call of the
store is one step, and `StoreCall.serve` is that step for each of them.

The users table is keyed by the name the user carries. No method breaks this,
and `keyed` keeps it as part of the type: a session is opened in the name that
the record found at login carries, not in the one it was looked up under.
-/

namespace Vexil.Server

open Vexil.Lib

/-! ## Records -/

/-- A Go value in an `interface{}`, by what `json.Marshal` makes of it: a
document, or the error that there is none (of a channel, a NaN, a cycle). -/
abbrev Dynamic := Except String JsonValue

/-- Of the two maps `none` is the nil map. -/
structure AuditEvent where
  id : String := ""
  timestamp : Nat := 0
  actor : String := ""
  action : String
  resource : String
  resourceId : String
  cluster : String := ""
  diff : Option (GoMap Dynamic) := none
  metadata : Option (GoMap String) := none
  deriving DecidableEq

structure AuditFilter where
  resource : String := ""
  resourceId : String := ""
  action : String := ""
  cluster : String := ""
  actor : String := ""
  since : Option Nat := none
  limit : Int := 0
  deriving DecidableEq

/-- `createdAt` is `none` for the zero time. -/
structure User where
  id : String := ""
  username : String
  passwordHash : String
  role : String
  createdAt : Option Nat := none
  deriving DecidableEq

/-- `memSession`. -/
structure MemSession where
  username : String
  role : String
  expiresAt : Nat
  deriving DecidableEq

/-- `MemoryStore`. -/
structure MemoryStore where
  events : List AuditEvent
  users : GoMap User
  sessions : GoMap MemSession
  keyed : ∀ name user, users.lookup name = some user → user.username = name

namespace MemoryStore

/-- `NewMemoryStore`. -/
def new : MemoryStore where
  events := []
  users := ∅
  sessions := ∅
  keyed := by
    intro name user h
    rw [Finmap.lookup_empty] at h
    cases h

/-- `s.users[name] = user`, for a user of that name. -/
def setUser (s : MemoryStore) (name : String) (user : User)
    (hname : user.username = name) : MemoryStore where
  events := s.events
  users := s.users.insert name user
  sessions := s.sessions
  keyed := by
    intro k u h
    rw [GoMap.lookup_insert] at h
    split at h
    · next hk =>
        cases h
        exact hname.trans hk.symm
    · exact s.keyed k u h

/-! ## Audit -/

def recordAudit (s : MemoryStore) (uuid : String) (now : Nat)
    (event : AuditEvent) : MemoryStore :=
  { s with
    events := s.events ++ [{ event with
      id := uuid
      timestamp := now }] }

/-- The tests of the loop in `ListAuditEvents`, all passed. -/
def keeps (filter : AuditFilter) (e : AuditEvent) : Bool :=
  (filter.resource = "" ∨ e.resource = filter.resource) ∧
  (filter.resourceId = "" ∨ e.resourceId = filter.resourceId) ∧
  (filter.action = "" ∨ e.action = filter.action) ∧
  (filter.cluster = "" ∨ e.cluster = filter.cluster) ∧
  (filter.actor = "" ∨ e.actor = filter.actor) ∧
  filter.since.all fun since => ¬e.timestamp < since

def listAuditEvents (s : MemoryStore) (filter : AuditFilter) :
    List AuditEvent :=
  let result := (s.events.filter (keeps filter)).reverse
  if filter.limit > 0 ∧ (result.length : Int) > filter.limit then
    result.take filter.limit.toNat
  else result

/-! ## Users -/

def userNotFound (username : String) : String := "user not found: " ++ username

def alreadyExists (username : String) : String :=
  "user already exists: " ++ username

def getUserByUsername (s : MemoryStore) (username : String) :
    Except String User :=
  match s.users.lookup username with
  | none => .error (userNotFound username)
  | some user => .ok user

def updatePassword (s : MemoryStore) (username passwordHash : String) :
    Except String Unit × MemoryStore :=
  match h : s.users.lookup username with
  | none => (.error (userNotFound username), s)
  | some user =>
      (.ok (), s.setUser username { user with passwordHash := passwordHash }
        (s.keyed username user h))

def createUser (s : MemoryStore) (uuid : String) (now : Nat) (user : User) :
    Except String Unit × MemoryStore :=
  match s.users.lookup user.username with
  | some _ => (.error (alreadyExists user.username), s)
  | none =>
      (.ok (), s.setUser user.username { user with
        id := if user.id = "" then uuid else user.id
        createdAt := user.createdAt.or (some now) } rfl)

/-- The hashes are left out. -/
def listUsers (s : MemoryStore) : List User :=
  s.users.sortedKeys.filterMap fun name =>
    (s.users.lookup name).map fun u => { u with passwordHash := "" }

def deleteUser (s : MemoryStore) (username : String) :
    Except String Unit × MemoryStore :=
  match s.users.lookup username with
  | none => (.error (userNotFound username), s)
  | some _ =>
      (.ok (), {
        events := s.events
        users := s.users.erase username
        sessions := s.sessions
        keyed := by
          intro k u h
          rw [GoMap.lookup_erase] at h
          split at h
          · cases h
          · exact s.keyed k u h })

def updateUserRole (s : MemoryStore) (username role : String) :
    Except String Unit × MemoryStore :=
  match h : s.users.lookup username with
  | none => (.error (userNotFound username), s)
  | some user =>
      (.ok (), s.setUser username { user with role := role }
        (s.keyed username user h))

/-! ## Sessions -/

def createSession (s : MemoryStore) (token username role : String)
    (expiresAt : Nat) : MemoryStore :=
  { s with sessions := s.sessions.insert token ⟨username, role, expiresAt⟩ }

/-- The name and the role of a session that has not expired. -/
def getSession (s : MemoryStore) (now : Nat) (token : String) :
    Option (String × String) :=
  match s.sessions.lookup token with
  | none => none
  | some sess =>
      if now > sess.expiresAt then none else some (sess.username, sess.role)

def deleteSession (s : MemoryStore) (token : String) : MemoryStore :=
  { s with sessions := s.sessions.erase token }

end MemoryStore

/-! ## The methods as calls -/

inductive StoreCall where
  | recordAudit (event : AuditEvent)
  | listAuditEvents (filter : AuditFilter)
  | getUserByUsername (username : String)
  | updatePassword (username passwordHash : String)
  | createUser (user : User)
  | listUsers
  | deleteUser (username : String)
  | updateUserRole (username role : String)
  | createSession (token username role : String) (expiresAt : Nat)
  | getSession (token : String)
  | deleteSession (token : String)
  deriving DecidableEq

abbrev StoreCall.Reply : StoreCall → Type
  | .listAuditEvents _ => Except String (List AuditEvent)
  | .getUserByUsername _ => Except String User
  | .listUsers => Except String (List User)
  | .getSession _ => Option (String × String)
  | _ => Except String Unit

/-- The store's answer at the time `now`, with the identifier `uuid.New` gives
when the method asks for one. -/
def StoreCall.serve (uuid : String) (now : Nat) :
    (c : StoreCall) → MemoryStore → c.Reply × MemoryStore
  | .recordAudit event, s => (.ok (), s.recordAudit uuid now event)
  | .listAuditEvents filter, s => (.ok (s.listAuditEvents filter), s)
  | .getUserByUsername username, s => (s.getUserByUsername username, s)
  | .updatePassword username hash, s => s.updatePassword username hash
  | .createUser user, s => s.createUser uuid now user
  | .listUsers, s => (.ok s.listUsers, s)
  | .deleteUser username, s => s.deleteUser username
  | .updateUserRole username role, s => s.updateUserRole username role
  | .createSession token username role expiresAt, s =>
      (.ok (), s.createSession token username role expiresAt)
  | .getSession token, s => (s.getSession now token, s)
  | .deleteSession token, s => (.ok (), s.deleteSession token)

end Vexil.Server
