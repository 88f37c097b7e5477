import Vexil.Sdk.Client

/-!
# The SDK's cache next to a running sidecar

`sidecarProvider` with everything that is under way: the calls of `GetFlag`
that wait for a response or have one to store, and the stream, from the request
to the cache. A `GetFlag` is three steps, the lookup, the response of the
sidecar and the store into the cache; only the first and the last are the SDK's.
The stream is a request, the `Subscribe` of its handler, and then each event by
way of the channel and the connection. A `Set` is one step: of what can come
between its write and its broadcast, a response can be put after both and a step
of the stream before both.

The request is for `/flags/` and the name as it stands. A name that an object
can have is one path segment and comes back as the path value; of any other
text nothing is known here, and its response is arbitrary.
-/

namespace Vexil.Sdk

open Vexil.Lib Vexil.Sidecar

/-- A name that an object can have: lower case letters, digits, `-` and `.`,
with a letter or a digit at both ends. -/
def ObjectName (name : String) : Prop :=
  (∀ c ∈ name.toList, c.isLower ∨ c.isDigit ∨ c = '-' ∨ c = '.') ∧
    (∀ c ∈ name.toList.head?, c.isLower ∨ c.isDigit) ∧
    (∀ c ∈ name.toList.getLast?, c.isLower ∨ c.isDigit) ∧ name ≠ ""

instance (name : String) : Decidable (ObjectName name) :=
  @instDecidableAnd _ _ (List.decidableBAll _ _) <|
    @instDecidableAnd _ _ (Option.decidableForallMem _) <|
      @instDecidableAnd _ _ (Option.decidableForallMem _) inferInstance

/-- Where the stream is; a subscribed one has a channel. -/
inductive StreamPhase where
  | idle
  | connected
  | subscribed (id : Nat)
  deriving DecidableEq, Repr

/-- `waiting` are the calls without a response, `responses` the flags that have
come back and are not in the cache yet, `wire` the events between the handler
and the SDK. -/
structure Provider.State where
  store : FlagStore := {}
  cache : GoMap Flag := ∅
  waiting : List String := []
  responses : List (String × Flag) := []
  stream : StreamPhase := .idle
  wire : List ResolvedFlag := []

/-- The steps; a response without a flag ends its call with an error. -/
inductive Provider.Act where
  | set (f : ResolvedFlag)
  | delete (name : String)
  | lookup (name : String)
  | respond (name : String) (r : Option Flag)
  | cacheStore (name : String) (f : Flag)
  | connect
  | subscribe
  | send
  | deliver
  deriving DecidableEq

/-- What `GetFlag` makes of the sidecar's response. -/
def decodeResponse : FlagResponse → Option Flag
  | .eventStream | .notFound => none
  | .ok f => some (decodeFlag f)

/-- What can come back for a name: of one that is not an object's, anything. -/
def Responds (s : FlagStore) (name : String) (r : Option Flag) : Prop :=
  ObjectName name → r = decodeResponse (handleFlag s name)

instance (s : FlagStore) (name : String) (r : Option Flag) :
    Decidable (Responds s name r) :=
  inferInstanceAs (Decidable (_ → _))

namespace Provider

/-- A step, if it can be taken. -/
def next (s : State) : Act → Option State
  | .set f => some { s with store := s.store.set f }
  | .delete name => some { s with store := s.store.delete name }
  | .lookup name =>
      match s.cache.lookup name with
      | some _ => some s
      | none => some { s with waiting := s.waiting ++ [name] }
  | .respond name r =>
      if name ∈ s.waiting ∧ Responds s.store name r then some { s with
          waiting := s.waiting.erase name
          responses := s.responses ++ r.toList.map fun f => (name, f) }
      else none
  | .cacheStore name f =>
      if (name, f) ∈ s.responses then
        some { s with
          cache := s.cache.insert name f
          responses := s.responses.erase (name, f) }
      else none
  | .connect =>
      match s.stream with
      | .idle => some { s with stream := .connected }
      | .connected | .subscribed _ => none
  | .subscribe =>
      match s.stream with
      | .connected => some { s with
          store := s.store.subscribe
          stream := .subscribed s.store.nextId }
      | .idle | .subscribed _ => none
  | .send =>
      match s.stream with
      | .idle | .connected => none
      | .subscribed id =>
          match s.store.channel id with
          | some (f :: queue) => some { s with
              store := s.store.leave id queue
              wire := s.wire ++ [f] }
          | some [] | none => none
  | .deliver =>
      match s.wire with
      | [] => none
      | f :: rest => some { s with
          cache := s.cache.insert f.name (decodeFlag f)
          wire := rest }

def Step (s : State) (a : Act) (s' : State) : Prop := next s a = some s'

/-! What the steps of the stream need, and what they leave -/

theorem Step.connect {s s' : State} (h : Step s .connect s') :
    s.stream = .idle ∧ s' = { s with stream := .connected } := by
  unfold Step next at h
  dsimp only at h
  split at h
  · next hidle =>
      cases h
      exact ⟨hidle, rfl⟩
  all_goals cases h

theorem Step.subscribe {s s' : State} (h : Step s .subscribe s') :
    s.stream = .connected ∧ s' = { s with
      store := s.store.subscribe, stream := .subscribed s.store.nextId } := by
  unfold Step next at h
  dsimp only at h
  split at h
  · next hconnected =>
      cases h
      exact ⟨hconnected, rfl⟩
  all_goals cases h

theorem Step.send {s s' : State} (h : Step s .send s') :
    ∃ id f queue, s.stream = .subscribed id ∧
      s.store.channel id = some (f :: queue) ∧
      s' = { s with
        store := s.store.leave id queue, wire := s.wire ++ [f] } := by
  unfold Step next at h
  dsimp only at h
  split at h
  · cases h
  · cases h
  · next id hid =>
      split at h
      · next f queue hqueue =>
          cases h
          exact ⟨id, f, queue, hid, hqueue, rfl⟩
      all_goals cases h

theorem Step.deliver {s s' : State} (h : Step s .deliver s') :
    ∃ f rest, s.wire = f :: rest ∧ s' = { s with
      cache := s.cache.insert f.name (decodeFlag f), wire := rest } := by
  unfold Step next at h
  dsimp only at h
  split at h
  · cases h
  · next f rest hwire =>
      cases h
      exact ⟨f, rest, hwire, rfl⟩

/-- What is in the stream's channel. -/
def channel (s : State) : List ResolvedFlag :=
  match s.stream with
  | .idle | .connected => []
  | .subscribed id => (s.store.channel id).getD []

/-- The events that have been sent and not been read. -/
def inFlight (s : State) : List ResolvedFlag := s.wire ++ channel s

/-- The stream is subscribed, and everything has been read and stored. -/
def Settled (s : State) : Prop :=
  (∃ id, s.stream = .subscribed id) ∧ inFlight s = [] ∧ s.responses = []

/-- What a `GetFlag` can return that nothing comes between, an error being
`none`. -/
def Returns (s : State) (name : String) (r : Option Flag) : Prop :=
  match s.cache.lookup name with
  | some f => r = some f
  | none => Responds s.store name r

/-- `GetFlag` gives what the sidecar has. -/
def Agrees (s : State) (name : String) : Prop :=
  ∀ r, Returns s name r → r = (s.store.get name).map decodeFlag

/-- `GetFlag` in one piece is one of these. -/
theorem returns_sidecarGetFlag (s : State) (name : String) :
    Returns s name (sidecarGetFlag s.cache s.store name).1.toOption := by
  unfold Returns sidecarGetFlag
  cases s.cache.lookup name with
  | some f => rfl
  | none =>
      intro _
      cases handleFlag s.store name with
      | eventStream => rfl
      | notFound => rfl
      | ok f => rfl

end Provider

end Vexil.Sdk
