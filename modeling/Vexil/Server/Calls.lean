import Mathlib.Logic.Function.Basic
import Vexil.Kube.Cluster
import Vexil.Server.Manager
import Vexil.Server.Store

/-!
# What the handlers of the API server act on

A handler calls the store, the registry, the API of a cluster, the clock, the
random source and `bcrypt`. Its calls are the only steps of the server that
anyone else can see, and requests that are served at the same time interleave
call by call.

`ServerStep` is what each call may answer and do. Reads of a cluster may be
stale, calls to it may fail, random bytes may be any, a salt may be any. The
rest of the world writes to the clusters and lets time pass.
-/

namespace Vexil.Server

open Vexil.Lib Vexil.Kube

/-- `golang.org/x/crypto/bcrypt` at the default cost. A hash is a function of
the salt, which the package draws itself, and the password; a password that is
too long has none. -/
class Bcrypt where
  generateFromPassword : String → String → Except String String
  compareHashAndPassword : String → String → Bool

/-- To run the code with: 22 characters of salt, and then the password. -/
@[reducible] def plainBcrypt : Bcrypt where
  generateFromPassword salt password :=
    if password.utf8ByteSize > 72 then
      .error "bcrypt: password length exceeds 72 bytes"
    else .ok (String.ofList
      ((salt.toList ++ List.replicate 22 '.').take 22 ++ password.toList))
  compareHashAndPassword hash password :=
    hash.toList.drop 22 = password.toList

/-! ## Calls -/

inductive ServerCall where
  | store (c : StoreCall)
  | clusters (c : ManagerCall)
  | kube (client : Endpoint) (c : KubeCall)
  | now
  | randRead (n : Nat)
  | generateFromPassword (password : String)

abbrev ServerCall.Reply : ServerCall → Type
  | .store c => c.Reply
  | .clusters c => c.Reply
  | .kube _ c => c.Reply
  | .now => Nat
  | .randRead _ => Except String (List Nat)
  | .generateFromPassword _ => Except String String

theorem ServerCall.reply_nonempty (c : ServerCall) : Nonempty c.Reply := by
  cases c with
  | store c => cases c <;> first | exact ⟨.error ""⟩ | exact ⟨none⟩
  | clusters c => cases c <;> first | exact ⟨.error ""⟩ | exact ⟨[]⟩
  | kube client c => exact ⟨.error ⟨none, ""⟩⟩
  | now => exact ⟨0⟩
  | randRead n => exact ⟨.error ""⟩
  | generateFromPassword password => exact ⟨.error ""⟩

abbrev ServerEvent := Event ServerCall ServerCall.Reply

abbrev ServerProg := Prog ServerCall ServerCall.Reply

structure ServerState where
  store : MemoryStore
  clusters : Manager
  kube : Endpoint → Cluster
  now : Nat

/-- The cluster behind one endpoint, replaced. -/
def ServerState.setKube (s : ServerState) (client : Endpoint) (k : Cluster) :
    ServerState := { s with kube := Function.update s.kube client k }

@[simp] theorem kube_setKube_self (s : ServerState) (client : Endpoint)
    (k : Cluster) : (s.setKube client k).kube client = k := by
  simp [ServerState.setKube]

theorem kube_setKube_ne (s : ServerState) {client client' : Endpoint}
    (h : client' ≠ client) (k : Cluster) :
    (s.setKube client k).kube client' = s.kube client' := by
  simp [ServerState.setKube, h]

theorem setKube_self (s : ServerState) (client : Endpoint) :
    s.setKube client (s.kube client) = s := by
  rw [ServerState.setKube, Function.update_eq_self]

/-! ## What the rest of the world does -/

inductive ServerMove where
  | kube (client : Endpoint) (w : OtherWrite)
  | tick (now : Nat)

def ServerMove.apply (w : ServerMove) (s : ServerState) : ServerState :=
  match w with
  | .kube client w => s.setKube client (w.apply (s.kube client))
  | .tick now => { s with now := now }

section
variable [Bcrypt] [ClientGo]

/-- What a call may answer and do. -/
def ServerStep (s : ServerState) : ServerEvent → ServerState → Prop
  | ⟨.store c, r⟩, s' =>
      ∃ uuid, (c.serve uuid s.now s.store).1 = r ∧
        s' = { s with store := (c.serve uuid s.now s.store).2 }
  | ⟨.clusters c, r⟩, s' =>
      ∃ fault order, s.clusters.clusters.Ranges order ∧
        (c.serve fault order s.clusters).1 = r ∧
        s' = { s with clusters := (c.serve fault order s.clusters).2 }
  | ⟨.kube client c, r⟩, s' =>
      ∃ k, StaleStep (s.kube client) ⟨c, r⟩ k ∧ s' = s.setKube client k
  | ⟨.now, t⟩, s' => t = s.now ∧ s' = s
  | ⟨.randRead n, r⟩, s' => (∀ bytes, r = .ok bytes → bytes.length = n) ∧ s' = s
  | ⟨.generateFromPassword password, r⟩, s' =>
      (∃ salt, r = Bcrypt.generateFromPassword salt password) ∧ s' = s

/-- The objects of a cluster are only reached through a client of it. -/
theorem kube_serverStep {s s' : ServerState} {e : ServerEvent}
    (h : ServerStep s e s') (client : Endpoint) :
    s'.kube client = s.kube client ∨ ∃ c r, e = ⟨.kube client c, r⟩ ∧
      StaleStep (s.kube client) ⟨c, r⟩ (s'.kube client) := by
  obtain ⟨c, r⟩ := e
  cases c with
  | store c =>
      obtain ⟨uuid, _, rfl⟩ := h
      exact .inl rfl
  | clusters c =>
      obtain ⟨fault, order, _, _, rfl⟩ := h
      exact .inl rfl
  | kube client' c =>
      obtain ⟨k, hk, rfl⟩ := h
      by_cases hclient : client = client'
      · subst hclient
        exact .inr ⟨c, r, rfl, by rwa [kube_setKube_self]⟩
      · exact .inl (kube_setKube_ne s hclient k)
  | now | randRead n | generateFromPassword password =>
      obtain ⟨_, rfl⟩ := h
      exact .inl rfl

abbrev ServerLabel (ι : Type) :=
  Label ι ServerCall ServerCall.Reply ServerMove

/-- The events of the server: calls of the requests in progress, and moves of
the rest of the world. -/
def ServerSystem {ι : Type} (s : ServerState) :
    ServerLabel ι → ServerState → Prop
  | .own _ e, s' => ServerStep s e s'
  | .other w, s' => s' = w.apply s

/-! ## One answer for each call -/

/-- A choice for everything a step leaves open. -/
structure Oracle where
  uuid : String := "uuid"
  salt : String := ""
  bytes : List Nat := []
  fault : Option String := none

def ServerCall.serve (o : Oracle) :
    (c : ServerCall) → ServerState → c.Reply × ServerState
  | .store c, s =>
      let r := c.serve o.uuid s.now s.store
      (r.1, { s with store := r.2 })
  | .clusters c, s =>
      let r := c.serve o.fault s.clusters.clusters.sortedKeys s.clusters
      (r.1, { s with clusters := r.2 })
  | .kube client c, s =>
      let r := c.serveOr o.fault (s.kube client)
      (r.1, s.setKube client r.2)
  | .now, s => (s.now, s)
  | .randRead n, s =>
      (if o.bytes.length = n then .ok o.bytes else .error "no entropy", s)
  | .generateFromPassword password, s =>
      (Bcrypt.generateFromPassword o.salt password, s)

theorem serve_step {o : Oracle} {s s' : ServerState} {e : ServerEvent}
    (h : Answers (ServerCall.serve o) s e s') : ServerStep s e s' := by
  obtain ⟨c, r⟩ := e
  have hreply : (c.serve o s).1 = r := congrArg Prod.fst h
  have hstate : s' = (c.serve o s).2 := (congrArg Prod.snd h).symm
  subst hreply hstate
  cases c with
  | store c => exact ⟨o.uuid, rfl, rfl⟩
  | clusters c =>
      exact ⟨o.fault, _, GoMap.ranges_sortedKeys _, rfl, rfl⟩
  | kube client c =>
      refine ⟨(c.serveOr o.fault (s.kube client)).2, ?_, rfl⟩
      exact KubeStep.stale ⟨o.fault, rfl⟩
  | now => exact ⟨rfl, rfl⟩
  | randRead n =>
      refine ⟨fun bytes hbytes => ?_, rfl⟩
      simp only [ServerCall.serve] at hbytes
      split at hbytes
      · next hlen =>
          cases hbytes
          exact hlen
      · cases hbytes
  | generateFromPassword password => exact ⟨⟨o.salt, rfl⟩, rfl⟩

end

end Vexil.Server
