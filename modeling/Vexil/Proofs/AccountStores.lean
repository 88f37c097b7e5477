import Vexil.Lib.Machine
import Vexil.Server.Postgres

/-!
# Two stores of users and sessions

The two stores take the same calls at the same times. Under each name and each
token one has what the other has, up to identifiers and times of creation
(`SameAccounts`), for the statements of SQL do to a unique key what Go does to a
map. The stores come apart in two ways, and both can be told before the call
(`Differs`).

The database refuses values that a map takes: texts that are no UTF-8 or have a
NUL, or are too long for an index, and times out of its range. It matters where
the map would have been written to. A name or a token that is refused is in
neither store, so to look for it fails in both.

And `MemoryStore` takes a session until the clock is after its expiry, while
`PostgresStore` takes it only as long as it expires after the clock, with both
times in microseconds. At the very instant of its expiry a session is good in
memory and gone in the database.

Nothing here looks into a text, so a `String` may as well stand for any other
bytes, as long as `takes` says which of them the database takes.
-/

namespace Vexil.Server

open Vexil.Lib

/-! ## The calls and the answers -/

inductive AccountCall where
  | createUser (user : User)
  | getUserByUsername (username : String)
  | updatePassword (username passwordHash : String)
  | updateUserRole (username role : String)
  | deleteUser (username : String)
  | createSession (token username role : String) (expiresAt : Nat)
  | getSession (token : String)
  | deleteSession (token : String)

/-- A call at a time of the clock, with the identifiers that a user it creates
gets in either store. -/
structure TimedCall where
  call : AccountCall
  now : Nat
  uuid : String := ""
  rowId : String := ""

/-- What a caller of either store is given of a user. -/
structure Account where
  username : String
  passwordHash : String
  role : String
  deriving DecidableEq

def User.account (u : User) : Account := ⟨u.username, u.passwordHash, u.role⟩

def UserRow.account (r : UserRow) : Account :=
  ⟨r.username, r.passwordHash, r.role⟩

/-- Success or failure, and what was asked for. -/
inductive AccountReply where
  | done (ok : Bool)
  | user (account : Option Account)
  | session (r : Option (String × String))
  deriving DecidableEq

def MemoryStore.serveAccount (s : MemoryStore) (c : TimedCall) :
    AccountReply × MemoryStore :=
  match c.call with
  | .createUser user =>
      let r := s.createUser c.uuid c.now user
      (.done r.1.isOk, r.2)
  | .getUserByUsername username =>
      (.user ((s.getUserByUsername username).toOption.map User.account), s)
  | .updatePassword username hash =>
      let r := s.updatePassword username hash
      (.done r.1.isOk, r.2)
  | .updateUserRole username role =>
      let r := s.updateUserRole username role
      (.done r.1.isOk, r.2)
  | .deleteUser username =>
      let r := s.deleteUser username
      (.done r.1.isOk, r.2)
  | .createSession token username role expiresAt =>
      (.done true, s.createSession token username role expiresAt)
  | .getSession token => (.session (s.getSession c.now token), s)
  | .deleteSession token => (.done true, s.deleteSession token)

section
variable [Postgres]

def PostgresStore.serveAccount (s : PostgresStore) (c : TimedCall) :
    AccountReply × PostgresStore :=
  match c.call with
  | .createUser user =>
      let r := s.createUser c.rowId c.now user
      (.done r.1.isOk, r.2)
  | .getUserByUsername username =>
      (.user ((s.getUserByUsername username).toOption.map User.account), s)
  | .updatePassword username hash =>
      let r := s.updatePassword username hash
      (.done r.1.isOk, r.2)
  | .updateUserRole username role =>
      let r := s.updateUserRole username role
      (.done r.1.isOk, r.2)
  | .deleteUser username =>
      let r := s.deleteUser username
      (.done r.1.isOk, r.2)
  | .createSession token username role expiresAt =>
      let r := s.createSession token username role expiresAt
      (.done r.1.isOk, r.2)
  | .getSession token => (.session (s.getSession c.now token), s)
  | .deleteSession token =>
      let r := s.deleteSession token
      (.done r.1.isOk, r.2)

/-! ## The same content -/

/-- A session, with its expiry as the database has it. -/
def MemSession.stored (sess : MemSession) : String × String × Option Nat :=
  (sess.username, sess.role, Postgres.timestamptz sess.expiresAt)

def SessionRow.stored (r : SessionRow) : String × String × Option Nat :=
  (r.username, r.role, some r.expiresAt)

structure SameAccounts (s : MemoryStore) (p : PostgresStore) : Prop where
  users : ∀ name, (s.users.lookup name).map User.account =
    (p.users.get? name).map UserRow.account
  sessions : ∀ token, (s.sessions.lookup token).map MemSession.stored =
    (p.sessions.get? token).map SessionRow.stored
  /-- What is in the database was not refused. -/
  names : ∀ name row, p.users.get? name = some row →
    Postgres.takes name = true
  tokens : ∀ token row, p.sessions.get? token = some row →
    Postgres.takes token = true

theorem sameAccounts_empty : SameAccounts .new {} where
  users _ := rfl
  sessions _ := rfl
  names _ _ h := nomatch h
  tokens _ _ h := nomatch h

namespace SameAccounts

variable {s : MemoryStore} {p : PostgresStore}

theorem lookup_eq_none (h : SameAccounts s p) (name : String) :
    s.users.lookup name = none ↔ p.users.get? name = none := by
  have hname := h.users name
  constructor
  · intro hnone
    rw [hnone] at hname
    exact Option.map_eq_none_iff.mp hname.symm
  · intro hnone
    rw [hnone] at hname
    exact Option.map_eq_none_iff.mp hname

theorem account_of_lookup (h : SameAccounts s p) {name : String} {user : User}
    (hlookup : s.users.lookup name = some user) :
    ∃ row, p.users.get? name = some row ∧ row.account = user.account := by
  have hname := h.users name
  rw [hlookup, Option.map_some] at hname
  exact Option.map_eq_some_iff.mp hname.symm

theorem takes_of_lookup (h : SameAccounts s p) {name : String} {user : User}
    (hlookup : s.users.lookup name = some user) :
    Postgres.takes name = true := by
  obtain ⟨row, hget, _⟩ := h.account_of_lookup hlookup
  exact h.names name row hget

end SameAccounts

/-! ## Where the stores come apart -/

/-- The database has room for the user. -/
def TakesUser (user : User) : Prop :=
  [user.username, user.passwordHash, user.role].all Postgres.takes = true ∧
    Postgres.indexes [user.username] = true

/-- The database has room for the session. -/
def TakesSession (token username role : String) (expiresAt : Nat) : Prop :=
  [token, username, role].all Postgres.takes = true ∧
    Postgres.indexes [token] = true ∧ Postgres.timestamptz expiresAt ≠ none

/-- The clock is in the microsecond of the expiry, and is not after it, or has
the expiry rounded up to the next one. -/
def AtExpiry (now expiresAt : Nat) : Prop :=
  micros now = micros expiresAt ∧
    (now ≤ expiresAt ↔
      Postgres.timestamptz expiresAt = some (micros expiresAt))

/-- A call that the two stores answer differently. -/
def Differs (s : MemoryStore) (c : TimedCall) : Prop :=
  match c.call with
  | .createUser user =>
      s.users.lookup user.username = none ∧ ¬TakesUser user
  | .updatePassword username hash =>
      s.users.lookup username ≠ none ∧ Postgres.takes hash = false
  | .updateUserRole username role =>
      s.users.lookup username ≠ none ∧ Postgres.takes role = false
  | .createSession token username role expiresAt =>
      ¬TakesSession token username role expiresAt
  | .deleteSession token => Postgres.takes token = false
  | .getSession token => ∃ sess, s.sessions.lookup token = some sess ∧
      AtExpiry c.now sess.expiresAt
  | .getUserByUsername _ | .deleteUser _ => False

end

theorem lookup_setUser (s : MemoryStore) (name other : String) (user : User)
    (hname : user.username = name) :
    (s.setUser name user hname).users.lookup other =
      if other = name then some user else s.users.lookup other :=
  GoMap.lookup_insert s.users name other user

/-- A change of one user, as the methods of `MemoryStore` make it. -/
def MemoryStore.updateUser (s : MemoryStore) (name : String)
    (change : User → User) (hchange : ∀ u, (change u).username = u.username) :
    Except String Unit × MemoryStore :=
  match h : s.users.lookup name with
  | none => (.error (MemoryStore.userNotFound name), s)
  | some user => (.ok (), s.setUser name (change user)
      ((hchange user).trans (s.keyed name user h)))

section
variable {s : MemoryStore} {name : String} {change : User → User}
  {hchange : ∀ u, (change u).username = u.username}

theorem updateUser_none (h : s.users.lookup name = none) :
    s.updateUser name change hchange =
      (.error (MemoryStore.userNotFound name), s) := by
  unfold MemoryStore.updateUser
  split
  · rfl
  · next user hsome => exact absurd (hsome.symm.trans h) nofun

theorem updateUser_some {user : User} (h : s.users.lookup name = some user) :
    s.updateUser name change hchange = (.ok (), s.setUser name (change user)
      ((hchange user).trans (s.keyed name user h))) := by
  unfold MemoryStore.updateUser
  split
  · next hnone => exact absurd (h.symm.trans hnone) nofun
  · next user' hsome =>
      obtain rfl := Option.some.inj (h.symm.trans hsome)
      rfl

end

theorem updatePassword_eq (s : MemoryStore) (name hash : String) :
    s.updatePassword name hash =
      s.updateUser name (fun u => { u with passwordHash := hash })
        fun _ => rfl := rfl

theorem updateUserRole_eq (s : MemoryStore) (name role : String) :
    s.updateUserRole name role =
      s.updateUser name (fun u => { u with role := role }) fun _ => rfl := rfl

/-! ## What a statement reports -/

/-- No row is affected when the name has none. -/
theorem checkRowAffected_none {t : Table UserRow.username} {name : String}
    (h : t.get? name = none) : PostgresStore.checkRowAffected
      (t.items.filter fun r => r.username = name).length name =
        .error (MemoryStore.userNotFound name) := by
  rw [Sql.filter_key, h]
  rfl

theorem checkRowAffected_some {t : Table UserRow.username} {name : String}
    {row : UserRow} (h : t.get? name = some row) :
    PostgresStore.checkRowAffected
      (t.items.filter fun r => r.username = name).length name = .ok () := by
  rw [Sql.filter_key, h]
  rfl

section
variable [Postgres] {p : PostgresStore}

/-- The row of a user that is created. -/
abbrev User.row (id : String) (now : Nat) (u : User) : UserRow :=
  ⟨id, u.username, u.passwordHash, u.role, micros now⟩

theorem createUser_new (rowId : String) (now : Nat) {user : User}
    (htakes : TakesUser user) (hget : p.users.get? user.username = none) :
    p.createUser rowId now user =
      (.ok (), { p with users := p.users.add (user.row rowId now) hget }) := by
  have hinsert : Sql.insert p.users (user.row rowId now) =
      some (p.users.add (user.row rowId now) hget) := dif_pos hget
  unfold PostgresStore.createUser PostgresStore.insertUser
  rw [if_pos htakes.1, hinsert]
  dsimp only
  rw [if_pos htakes.2]

theorem createUser_there (rowId : String) (now : Nat) {user : User}
    (htakes : [user.username, user.passwordHash, user.role].all
      Postgres.takes = true) {row : UserRow}
    (hget : p.users.get? user.username = some row) :
    p.createUser rowId now user =
      (.error (MemoryStore.alreadyExists user.username), p) := by
  have hinsert : Sql.insert p.users (user.row rowId now) = none :=
    dif_neg fun hnone => Option.some_ne_none row (hget.symm.trans hnone)
  unfold PostgresStore.createUser PostgresStore.insertUser
  rw [if_pos htakes, hinsert]
  exact if_pos (by decide +kernel)

theorem createUser_refused (rowId : String) (now : Nat) {user : User}
    (hrefused : ¬TakesUser user) :
    ∃ err, p.createUser rowId now user = (.error err, p) := by
  have herr : ∃ err, p.insertUser (user.row rowId now) = .error err := by
    unfold PostgresStore.insertUser
    split
    · next htakes =>
        split
        · exact ⟨_, rfl⟩
        · refine ⟨_, if_neg fun hindex => hrefused ⟨htakes, hindex⟩⟩
    · exact ⟨_, rfl⟩
  obtain ⟨err, herr⟩ := herr
  unfold PostgresStore.createUser
  rw [herr]
  dsimp only
  split
  · exact ⟨_, rfl⟩
  · exact ⟨_, rfl⟩

end

/-! ## What the database takes, both stores do alike -/

namespace SameAccounts

section
variable [Postgres] {s : MemoryStore} {p : PostgresStore}

/-- The table of users changes, and no name that was not there comes in. -/
theorem of_users (h : SameAccounts s p) {s' : MemoryStore}
    {users : Table UserRow.username} (hsessions : s'.sessions = s.sessions)
    (husers : ∀ name, (s'.users.lookup name).map User.account =
      (users.get? name).map UserRow.account)
    (hnames : ∀ name row, users.get? name = some row →
      (∃ row, p.users.get? name = some row) ∨ Postgres.takes name = true) :
    SameAccounts s' { p with users := users } where
  users := husers
  sessions := by
    rw [hsessions]
    exact h.sessions
  names name row hget := by
    rcases hnames name row hget with ⟨row', hget'⟩ | htakes
    · exact h.names name row' hget'
    · exact htakes
  tokens := h.tokens

/-- An update of one row: it succeeds in both stores or in none. -/
theorem update (h : SameAccounts s p) (name : String) {change : User → User}
    (hchange : ∀ u, (change u).username = u.username) {set : UserRow → UserRow}
    (hset : ∀ r, (set r).username = r.username)
    (hrow : ∀ (u : User) (r : UserRow), r.account = u.account →
      (set r).account = (change u).account) :
    (s.updateUser name change hchange).1 =
      PostgresStore.checkRowAffected (Sql.update p.users name set hset).1
        name ∧
    SameAccounts (s.updateUser name change hchange).2
      { p with users := (Sql.update p.users name set hset).2 } := by
  have hnames : ∀ other row,
      (Sql.update p.users name set hset).2.get? other = some row →
        (∃ row, p.users.get? other = some row) ∨
          Postgres.takes other = true := by
    intro other row hget
    rw [Sql.get?_update] at hget
    split at hget
    · obtain ⟨row', hrow', _⟩ := Option.map_eq_some_iff.mp hget
      exact .inl ⟨row', hrow'⟩
    · exact .inl ⟨row, hget⟩
  cases hlookup : s.users.lookup name with
  | none =>
      have hget := (h.lookup_eq_none name).mp hlookup
      rw [updateUser_none hlookup]
      refine ⟨(checkRowAffected_none hget).symm,
        h.of_users rfl (fun other => ?_) hnames⟩
      rw [Sql.get?_update]
      split
      · next heq =>
          subst heq
          rw [hget, hlookup]
          rfl
      · exact h.users other
  | some user =>
      obtain ⟨row, hget, haccount⟩ := h.account_of_lookup hlookup
      rw [updateUser_some hlookup]
      refine ⟨(checkRowAffected_some hget).symm,
        h.of_users rfl (fun other => ?_) hnames⟩
      rw [lookup_setUser, Sql.get?_update]
      split
      · next heq =>
          subst heq
          rw [hget, Option.map_some, Option.map_some, Option.map_some,
            hrow user row haccount]
      · exact h.users other

theorem updatePassword (h : SameAccounts s p) {name hash : String}
    (htakes : [hash, name].all Postgres.takes = true) :
    (s.updatePassword name hash).1 = (p.updatePassword name hash).1 ∧
    SameAccounts (s.updatePassword name hash).2
      (p.updatePassword name hash).2 := by
  rw [PostgresStore.updatePassword, if_pos htakes, updatePassword_eq]
  refine h.update name _ _ fun u r hr => ?_
  simp only [UserRow.account, User.account, Account.mk.injEq] at hr ⊢
  exact ⟨hr.1, trivial, hr.2.2⟩

theorem updateUserRole (h : SameAccounts s p) {name role : String}
    (htakes : [role, name].all Postgres.takes = true) :
    (s.updateUserRole name role).1 = (p.updateUserRole name role).1 ∧
    SameAccounts (s.updateUserRole name role).2
      (p.updateUserRole name role).2 := by
  rw [PostgresStore.updateUserRole, if_pos htakes, updateUserRole_eq]
  refine h.update name _ _ fun u r hr => ?_
  simp only [UserRow.account, User.account, Account.mk.injEq] at hr ⊢
  exact ⟨hr.1, hr.2.1, trivial⟩

theorem createUser (h : SameAccounts s p) (uuid rowId : String) (now : Nat)
    {user : User} (htakes : TakesUser user) :
    (s.createUser uuid now user).1 = (p.createUser rowId now user).1 ∧
    SameAccounts (s.createUser uuid now user).2
      (p.createUser rowId now user).2 := by
  have hname : Postgres.takes user.username = true :=
    List.all_eq_true.mp htakes.1 _ List.mem_cons_self
  unfold MemoryStore.createUser
  cases hlookup : s.users.lookup user.username with
  | some found =>
      obtain ⟨row, hget, _⟩ := h.account_of_lookup hlookup
      rw [createUser_there rowId now htakes.1 hget]
      exact ⟨rfl, h⟩
  | none =>
      have hget := (h.lookup_eq_none user.username).mp hlookup
      rw [createUser_new rowId now htakes hget]
      refine ⟨rfl, h.of_users rfl (fun other => ?_) fun other row hrow => ?_⟩
      · rw [lookup_setUser, Table.get?_add]
        split
        · rfl
        · exact h.users other
      · rw [Table.get?_add] at hrow
        split at hrow
        · next heq =>
            subst heq
            exact .inr hname
        · exact .inl ⟨row, hrow⟩

theorem deleteUser (h : SameAccounts s p) {name : String}
    (htakes : Postgres.takes name = true) :
    (s.deleteUser name).1 = (p.deleteUser name).1 ∧
    SameAccounts (s.deleteUser name).2 (p.deleteUser name).2 := by
  have hnames : ∀ other row, (p.users.erase name).get? other = some row →
      (∃ row, p.users.get? other = some row) ∨
        Postgres.takes other = true := by
    intro other row hget
    rw [Table.get?_erase] at hget
    split at hget
    · cases hget
    · exact .inl ⟨row, hget⟩
  unfold MemoryStore.deleteUser PostgresStore.deleteUser Sql.delete
  rw [if_pos htakes]
  cases hlookup : s.users.lookup name with
  | none =>
      have hget := (h.lookup_eq_none name).mp hlookup
      refine ⟨(checkRowAffected_none hget).symm,
        h.of_users rfl (fun other => ?_) hnames⟩
      show (s.users.lookup other).map _ = _
      rw [Table.get?_erase]
      split
      · next heq =>
          subst heq
          rw [hlookup]
          rfl
      · exact h.users other
  | some user =>
      obtain ⟨row, hget, _⟩ := h.account_of_lookup hlookup
      refine ⟨(checkRowAffected_some hget).symm,
        h.of_users rfl (fun other => ?_) hnames⟩
      show ((s.users.erase name).lookup other).map _ = _
      rw [GoMap.lookup_erase, Table.get?_erase]
      split
      · rfl
      · exact h.users other

theorem getUserByUsername (h : SameAccounts s p) {name : String}
    (htakes : Postgres.takes name = true) :
    (s.getUserByUsername name).map User.account =
      (p.getUserByUsername name).map User.account := by
  unfold MemoryStore.getUserByUsername PostgresStore.getUserByUsername
  rw [if_pos htakes, Sql.queryRow_key]
  cases hlookup : s.users.lookup name with
  | none =>
      rw [(h.lookup_eq_none name).mp hlookup]
      rfl
  | some user =>
      obtain ⟨row, hget, haccount⟩ := h.account_of_lookup hlookup
      rw [hget]
      exact congrArg Except.ok haccount.symm

theorem createSession (h : SameAccounts s p) {token name role : String}
    {expiresAt : Nat} (htakes : TakesSession token name role expiresAt) :
    (p.createSession token name role expiresAt).1 = .ok () ∧
    SameAccounts (s.createSession token name role expiresAt)
      (p.createSession token name role expiresAt).2 := by
  have htoken : Postgres.takes token = true :=
    List.all_eq_true.mp htakes.1 _ List.mem_cons_self
  obtain ⟨t, ht⟩ := Option.ne_none_iff_exists'.mp htakes.2.2
  have hrow : PostgresStore.sessionRow token name role expiresAt =
      some ⟨token, name, role, t⟩ := by
    rw [PostgresStore.sessionRow, if_pos ⟨htakes.1, htakes.2.1⟩, ht]
    rfl
  unfold PostgresStore.createSession
  rw [hrow]
  refine ⟨rfl, h.users, fun other => ?_, h.names, fun other r hget => ?_⟩
  · unfold MemoryStore.createSession
    rw [GoMap.lookup_insert, Sql.get?_upsert]
    split
    · rw [Option.map_some, MemSession.stored, ht]
      cases p.sessions.get? other with
      | none => rfl
      | some r => rfl
    · exact h.sessions other
  · rw [Sql.get?_upsert] at hget
    split at hget
    · next heq =>
        subst heq
        exact htoken
    · exact h.tokens other r hget

theorem deleteSession (h : SameAccounts s p) {token : String}
    (htakes : Postgres.takes token = true) :
    (p.deleteSession token).1 = .ok () ∧
    SameAccounts (s.deleteSession token) (p.deleteSession token).2 := by
  unfold PostgresStore.deleteSession
  rw [if_pos htakes]
  refine ⟨rfl, h.users, fun other => ?_, h.names, fun other r hget => ?_⟩
  · unfold MemoryStore.deleteSession Sql.delete
    rw [GoMap.lookup_erase, Table.get?_erase]
    split
    · rfl
    · exact h.sessions other
  · rw [Sql.delete, Table.get?_erase] at hget
    split at hget
    · cases hget
    · exact h.tokens other r hget

end

end SameAccounts

/-! ## A session at its expiry -/

section
variable [Postgres] {s : MemoryStore} {p : PostgresStore}

theorem postgres_getSession (htakes : ∀ row,
      p.sessions.get? token = some row → Postgres.takes token = true)
    (now : Nat) : p.getSession now token =
      ((p.sessions.get? token).filter fun r => r.expiresAt > micros now).map
        fun r => (r.username, r.role) := by
  unfold PostgresStore.getSession
  have hrow := Sql.queryRow_key_and p.sessions token fun r =>
    r.expiresAt > micros now
  simp only [decide_eq_true_eq] at hrow
  rw [hrow]
  cases hget : p.sessions.get? token with
  | none =>
      rw [Option.filter_none]
      split <;> rfl
  | some row =>
      rw [if_pos (htakes row hget)]
      cases (some row).filter fun r => r.expiresAt > micros now with
      | none => rfl
      | some r => rfl

/-- Rounding moves an expiry by less than a microsecond. -/
theorem expired_alike_iff (now : Nat) {expiresAt u : Nat}
    (hstored : Postgres.timestamptz expiresAt = some u) :
    (now ≤ expiresAt ↔ u > micros now) ↔ ¬AtExpiry now expiresAt := by
  have hnear := Postgres.near _ _ hstored
  rw [AtExpiry, hstored, Option.some.injEq]
  unfold micros
  omega

theorem SameAccounts.getSession_eq_iff (h : SameAccounts s p) (now : Nat)
    (token : String) : s.getSession now token = p.getSession now token ↔
      ∀ sess, s.sessions.lookup token = some sess →
        ¬AtExpiry now sess.expiresAt := by
  have htoken := h.sessions token
  rw [postgres_getSession (h.tokens token), MemoryStore.getSession]
  cases hlookup : s.sessions.lookup token with
  | none =>
      rw [hlookup] at htoken
      rw [Option.map_eq_none_iff.mp htoken.symm]
      exact iff_of_true rfl nofun
  | some sess =>
      rw [hlookup, Option.map_some] at htoken
      obtain ⟨row, hget, hrow⟩ := Option.map_eq_some_iff.mp htoken.symm
      obtain ⟨husername, hrow⟩ := Prod.mk.inj hrow
      obtain ⟨hrole, hstored⟩ := Prod.mk.inj hrow
      rw [hget]
      have hiff := expired_alike_iff now hstored.symm
      simp only [Option.some.injEq, forall_eq', ← hiff]
      by_cases hle : now ≤ sess.expiresAt
      · by_cases hgt : row.expiresAt > micros now
        · simp [Option.filter, hle, hgt, husername, hrole]
        · simp [Option.filter, hle, hgt]
      · by_cases hgt : row.expiresAt > micros now
        · simp [Option.filter, hle, hgt]
        · simp [Option.filter, hle, hgt]

end

/-! ## Any calls -/

section
variable [Postgres] {s : MemoryStore} {p : PostgresStore}

/-- A call succeeds in both stores or in none, and leaves them the same, unless
it is one that `differs`. -/
def AnsweredAlike (differs : Prop) (m : Except String Unit × MemoryStore)
    (d : Except String Unit × PostgresStore) : Prop :=
  (m.1.isOk = d.1.isOk ↔ ¬differs) ∧ (¬differs → SameAccounts m.2 d.2)

variable {differs : Prop} {m : Except String Unit × MemoryStore}
  {d : Except String Unit × PostgresStore}

theorem answeredAlike_of_eq (hnot : ¬differs)
    (heq : m.1 = d.1 ∧ SameAccounts m.2 d.2) : AnsweredAlike differs m d := by
  refine ⟨iff_of_true ?_ hnot, fun _ => heq.2⟩
  rw [heq.1]

/-- The database refuses the call, and the map has either taken it or failed
too. -/
theorem answeredAlike_of_refused (h : SameAccounts s p) {err : String}
    (hd : d = (.error err, p))
    (hm : (m.1 = .ok () ∧ differs) ∨
      ∃ err, m = (.error err, s) ∧ ¬differs) : AnsweredAlike differs m d := by
  subst hd
  rcases hm with ⟨hok, hdiffers⟩ | ⟨err, rfl, hnot⟩
  · refine ⟨iff_of_false ?_ (not_not_intro hdiffers), fun hnot => ?_⟩
    · rw [hok]
      exact Bool.true_eq_false_eq_False
    · exact absurd hdiffers hnot
  · exact ⟨iff_of_true rfl hnot, fun _ => h⟩

/-- One column of one user is set. -/
theorem answeredAlike_update (h : SameAccounts s p) {name value : String}
    {change : User → User} (hchange : ∀ u, (change u).username = u.username)
    (htaken : [value, name].all Postgres.takes = true →
      (s.updateUser name change hchange).1 = d.1 ∧
        SameAccounts (s.updateUser name change hchange).2 d.2)
    (hrefused : [value, name].all Postgres.takes ≠ true →
      d = (.error Postgres.refusal, p)) :
    AnsweredAlike (s.users.lookup name ≠ none ∧ Postgres.takes value = false)
      (s.updateUser name change hchange) d := by
  by_cases htakes : [value, name].all Postgres.takes = true
  · have hvalue : Postgres.takes value = true :=
      List.all_eq_true.mp htakes _ List.mem_cons_self
    refine answeredAlike_of_eq ?_ (htaken htakes)
    rintro ⟨_, hfalse⟩
    rw [hvalue] at hfalse
    cases hfalse
  · refine answeredAlike_of_refused h (hrefused htakes) ?_
    cases hlookup : s.users.lookup name with
    | none =>
        refine .inr ⟨_, updateUser_none hlookup, fun hdiffers => ?_⟩
        exact hdiffers.1 rfl
    | some user =>
        have hvalue : Postgres.takes value = false := by
          simpa [h.takes_of_lookup hlookup] using htakes
        rw [updateUser_some hlookup]
        exact .inl ⟨rfl, Option.some_ne_none user, hvalue⟩

theorem answeredAlike_updatePassword (h : SameAccounts s p)
    (name hash : String) : AnsweredAlike
      (s.users.lookup name ≠ none ∧ Postgres.takes hash = false)
      (s.updatePassword name hash) (p.updatePassword name hash) := by
  rw [updatePassword_eq]
  exact answeredAlike_update h _ h.updatePassword fun hne => if_neg hne

theorem answeredAlike_updateUserRole (h : SameAccounts s p)
    (name role : String) : AnsweredAlike
      (s.users.lookup name ≠ none ∧ Postgres.takes role = false)
      (s.updateUserRole name role) (p.updateUserRole name role) := by
  rw [updateUserRole_eq]
  exact answeredAlike_update h _ h.updateUserRole fun hne => if_neg hne

theorem answeredAlike_createUser (h : SameAccounts s p) (uuid rowId : String)
    (now : Nat) (user : User) : AnsweredAlike
      (s.users.lookup user.username = none ∧ ¬TakesUser user)
      (s.createUser uuid now user) (p.createUser rowId now user) := by
  by_cases htakes : TakesUser user
  · exact answeredAlike_of_eq (fun hdiffers => hdiffers.2 htakes)
      (h.createUser uuid rowId now htakes)
  · obtain ⟨err, hd⟩ := createUser_refused (p := p) rowId now htakes
    refine answeredAlike_of_refused h hd ?_
    unfold MemoryStore.createUser
    cases hlookup : s.users.lookup user.username with
    | none => exact .inl ⟨rfl, rfl, htakes⟩
    | some found => exact .inr ⟨_, rfl, nofun⟩

theorem answeredAlike_deleteUser (h : SameAccounts s p) (name : String) :
    AnsweredAlike False (s.deleteUser name) (p.deleteUser name) := by
  by_cases htakes : Postgres.takes name = true
  · exact answeredAlike_of_eq not_false (h.deleteUser htakes)
  · refine answeredAlike_of_refused h (if_neg htakes) (.inr ?_)
    unfold MemoryStore.deleteUser
    cases hlookup : s.users.lookup name with
    | none => exact ⟨_, rfl, not_false⟩
    | some user => exact absurd (h.takes_of_lookup hlookup) htakes

theorem answeredAlike_createSession (h : SameAccounts s p)
    (token name role : String) (expiresAt : Nat) : AnsweredAlike
      (¬TakesSession token name role expiresAt)
      (.ok (), s.createSession token name role expiresAt)
      (p.createSession token name role expiresAt) := by
  by_cases htakes : TakesSession token name role expiresAt
  · obtain ⟨hok, hsame⟩ := h.createSession htakes
    exact answeredAlike_of_eq (not_not_intro htakes) ⟨hok.symm, hsame⟩
  · have hrow : PostgresStore.sessionRow token name role expiresAt = none := by
      unfold PostgresStore.sessionRow
      split
      · next htexts =>
          rw [Option.map_eq_none_iff]
          by_contra htime
          exact htakes ⟨htexts.1, htexts.2, htime⟩
      · rfl
    have hd : p.createSession token name role expiresAt =
        (.error Postgres.refusal, p) := by
      rw [PostgresStore.createSession, hrow]
    exact answeredAlike_of_refused h hd (.inl ⟨rfl, htakes⟩)

theorem answeredAlike_deleteSession (h : SameAccounts s p) (token : String) :
    AnsweredAlike (Postgres.takes token = false)
      (.ok (), s.deleteSession token) (p.deleteSession token) := by
  by_cases htakes : Postgres.takes token = true
  · obtain ⟨hok, hsame⟩ := h.deleteSession htakes
    refine answeredAlike_of_eq ?_ ⟨hok.symm, hsame⟩
    rw [htakes]
    exact Bool.true_eq_false_eq_False
  · exact answeredAlike_of_refused h (if_neg htakes)
      (.inl ⟨rfl, Bool.eq_false_of_not_eq_true htakes⟩)

/-- A name that the database does not take is in neither store. -/
theorem SameAccounts.getUserByUsername_eq (h : SameAccounts s p)
    (name : String) :
    (s.getUserByUsername name).toOption.map User.account =
      (p.getUserByUsername name).toOption.map User.account := by
  by_cases htakes : Postgres.takes name = true
  · have heq := h.getUserByUsername htakes
    cases hs : s.getUserByUsername name with
    | error err =>
        cases hp : p.getUserByUsername name with
        | error err' => rfl
        | ok user =>
            rw [hs, hp] at heq
            cases heq
    | ok user =>
        cases hp : p.getUserByUsername name with
        | error err =>
            rw [hs, hp] at heq
            cases heq
        | ok user' =>
            rw [hs, hp] at heq
            exact congrArg some (Except.ok.inj heq)
  · unfold MemoryStore.getUserByUsername PostgresStore.getUserByUsername
    rw [if_neg htakes]
    cases hlookup : s.users.lookup name with
    | none => rfl
    | some user => exact absurd (h.takes_of_lookup hlookup) htakes

theorem SameAccounts.serve (h : SameAccounts s p) (c : TimedCall) :
    ((s.serveAccount c).1 = (p.serveAccount c).1 ↔ ¬Differs s c) ∧
    (¬Differs s c →
      SameAccounts (s.serveAccount c).2 (p.serveAccount c).2) := by
  unfold MemoryStore.serveAccount PostgresStore.serveAccount Differs
  cases c.call with
  | createUser user =>
      have hcall := answeredAlike_createUser h c.uuid c.rowId c.now user
      exact ⟨by rw [AccountReply.done.injEq, hcall.1], hcall.2⟩
  | getUserByUsername name =>
      exact ⟨by simp [h.getUserByUsername_eq name], fun _ => h⟩
  | updatePassword name hash =>
      have hcall := answeredAlike_updatePassword h name hash
      exact ⟨by rw [AccountReply.done.injEq, hcall.1], hcall.2⟩
  | updateUserRole name role =>
      have hcall := answeredAlike_updateUserRole h name role
      exact ⟨by rw [AccountReply.done.injEq, hcall.1], hcall.2⟩
  | deleteUser name =>
      have hcall := answeredAlike_deleteUser h name
      exact ⟨by rw [AccountReply.done.injEq, hcall.1], hcall.2⟩
  | createSession token name role expiresAt =>
      have hcall := answeredAlike_createSession h token name role expiresAt
      exact ⟨AccountReply.done.injEq .. ▸ hcall.1, hcall.2⟩
  | getSession token =>
      refine ⟨?_, fun _ => h⟩
      rw [AccountReply.session.injEq, h.getSession_eq_iff, not_exists]
      exact forall_congr' fun sess => not_and.symm
  | deleteSession token =>
      have hcall := answeredAlike_deleteSession h token
      exact ⟨AccountReply.done.injEq .. ▸ hcall.1, hcall.2⟩

/-- The two stores answer the same calls alike if and only if none of them is
one that they answer differently. -/
theorem account_stores_agree_iff (calls : List TimedCall) :
    outputs MemoryStore.serveAccount .new calls =
      outputs PostgresStore.serveAccount {} calls ↔
    Always MemoryStore.serveAccount (fun s c => ¬Differs s c) .new calls :=
  outputs_eq_iff (fun _ _ c h => (h.serve c).2) (fun _ _ c h => (h.serve c).1)
    sameAccounts_empty calls

end

/-- A session until 8000, asked for at 8000. -/
def expiryCalls : List TimedCall :=
  [{ call := .createSession "t" "ana" "viewer" 8000, now := 5000 },
    { call := .getSession "t", now := 8000 }]

theorem session_at_expiry :
    letI := plainPostgres
    expiryCalls.Pairwise (fun a b => a.now ≤ b.now) ∧
    outputs MemoryStore.serveAccount .new expiryCalls =
      [.done true, .session (some ("ana", "viewer"))] ∧
    outputs PostgresStore.serveAccount {} expiryCalls =
      [.done true, .session none] := by decide +kernel

end Vexil.Server
