import Vexil.Kube.Types

/-!
# The sidecar's flag store

`flagStore` and `resolveFlag` of `sidecar/main.go`. The store is a map from
flag names to the view served to SDKs, and the subscribers that are told about
every `Set`. A subscriber's channel holds 64 flags; one that is full misses the
update. The two mutexes make each operation one step, so an operation is a
function of the store.
-/

namespace Vexil.Sidecar

open Vexil.Lib Vexil.Kube

/-- `resolvedFlag`. -/
structure ResolvedFlag where
  name : String
  type : String
  value : String
  disabled : Bool
  description : String
  deriving DecidableEq, Repr

/-- A channel of a subscriber, named by a number. -/
structure Subscriber where
  id : Nat
  queue : List ResolvedFlag

/-- The capacity of a subscriber's channel. -/
def channelCapacity : Nat := 64

structure FlagStore where
  flags : GoMap ResolvedFlag := ∅
  subscribers : Table Subscriber.id := .empty
  nextId : Nat := 0

namespace FlagStore

/-- A send that drops the flag when the channel is full. -/
def offer (f : ResolvedFlag) (ch : Subscriber) : Subscriber :=
  if ch.queue.length < channelCapacity then { ch with queue := ch.queue ++ [f] }
  else ch

theorem id_offer (f : ResolvedFlag) (ch : Subscriber) :
    (offer f ch).id = ch.id := by
  unfold offer
  split <;> rfl

def broadcast (s : FlagStore) (f : ResolvedFlag) : FlagStore :=
  { s with subscribers := s.subscribers.mapItems (offer f) (id_offer f) }

def set (s : FlagStore) (f : ResolvedFlag) : FlagStore :=
  { s with flags := s.flags.insert f.name f }.broadcast f

def delete (s : FlagStore) (name : String) : FlagStore :=
  { s with flags := s.flags.erase name }

def get (s : FlagStore) (name : String) : Option ResolvedFlag :=
  s.flags.lookup name

/-- In no order that a caller can rely on. -/
def all (s : FlagStore) : Multiset ResolvedFlag :=
  s.flags.entries.map Sigma.snd

@[simp] theorem get_set (s : FlagStore) (f : ResolvedFlag) (name : String) :
    (s.set f).get name = if name = f.name then some f else s.get name :=
  GoMap.lookup_insert s.flags f.name name f

@[simp] theorem get_delete (s : FlagStore) (name other : String) :
    (s.delete name).get other = if other = name then none else s.get other :=
  GoMap.lookup_erase s.flags name other

/-- `all` lists what `get` finds. -/
theorem mem_all {s : FlagStore} {f : ResolvedFlag} :
    f ∈ s.all ↔ ∃ name, s.get name = some f := by
  rw [all, Multiset.mem_map]
  constructor
  · rintro ⟨⟨name, g⟩, hmem, rfl⟩
    exact ⟨name, Finmap.mem_lookup_iff.mpr hmem⟩
  · rintro ⟨name, h⟩
    exact ⟨⟨name, f⟩, Finmap.mem_lookup_iff.mp h, rfl⟩

/-! ## Channels -/

/-- What is in the channel of a subscriber, if there is one. -/
def channel (s : FlagStore) (id : Nat) : Option (List ResolvedFlag) :=
  (s.subscribers.get? id).map Subscriber.queue

/-- `Subscribe`, which names the new channel `s.nextId`. -/
def subscribe (s : FlagStore) : FlagStore :=
  { s with
    subscribers := s.subscribers.set ⟨s.nextId, []⟩
    nextId := s.nextId + 1 }

/-- After a receive this is left in the channel. -/
def leave (s : FlagStore) (id : Nat) (queue : List ResolvedFlag) : FlagStore :=
  { s with subscribers := s.subscribers.put ⟨id, queue⟩ }

theorem channel_set (s : FlagStore) (f : ResolvedFlag) (id : Nat) :
    (s.set f).channel id = (s.channel id).map fun queue =>
      if queue.length < channelCapacity then queue ++ [f] else queue := by
  have hget : (s.set f).subscribers.get? id =
      (s.subscribers.get? id).map (offer f) :=
    Table.get?_mapItems s.subscribers _ (id_offer f) id
  rw [channel, channel, hget, Option.map_map, Option.map_map]
  congr 1
  funext ch
  rw [Function.comp_apply, Function.comp_apply, offer]
  split
  · rfl
  · rfl

theorem channel_subscribe (s : FlagStore) :
    s.subscribe.channel s.nextId = some [] := by
  rw [channel, subscribe, Table.get?_set, if_pos rfl]
  rfl

theorem channel_leave (s : FlagStore) (id : Nat) (queue : List ResolvedFlag) :
    (s.leave id queue).channel id = (s.channel id).map fun _ => queue := by
  rw [channel, channel, leave, Table.get?_put, if_pos rfl, Option.map_map,
    Option.map_map]
  rfl

end FlagStore

/-- The last flag of a name. -/
def lastNamed (name : String) (fs : List ResolvedFlag) : Option ResolvedFlag :=
  (fs.filter fun f => f.name = name).getLast?

theorem lastNamed_append (name : String) (fs gs : List ResolvedFlag) :
    lastNamed name (fs ++ gs) = (lastNamed name gs).or (lastNamed name fs) := by
  rw [lastNamed, List.filter_append, List.getLast?_append]
  rfl

theorem lastNamed_eq_none {name : String} {fs : List ResolvedFlag}
    (h : ∀ f ∈ fs, f.name ≠ name) : lastNamed name fs = none := by
  rw [lastNamed, List.getLast?_eq_none_iff, List.filter_eq_nil_iff]
  simpa using h

theorem lastNamed_middle {name : String} {fs gs : List ResolvedFlag}
    {f : ResolvedFlag} (hf : f.name = name) (h : ∀ g ∈ gs, g.name ≠ name) :
    lastNamed name (fs ++ f :: gs) = some f := by
  have hone : lastNamed name [f] = some f := by simp [lastNamed, hf]
  rw [List.append_cons, lastNamed_append, lastNamed_append,
    lastNamed_eq_none h, hone]
  rfl

/-- The view of a flag that SDKs get: the status counts when it has a value. -/
def resolveFlag (ff : FeatureFlag) : ResolvedFlag where
  name := ff.metadata.name
  type := ff.spec.type.text
  value :=
    if ff.status.currentValue ≠ "" then ff.status.currentValue
    else ff.spec.defaultValue
  disabled := ff.spec.disabled
  description := ff.spec.description

/-- The responses of `GET /flags/{name}`. The name `stream` belongs to the route
of the event stream. -/
inductive FlagResponse where
  | eventStream
  | notFound
  | ok (f : ResolvedFlag)

def handleFlag (s : FlagStore) (name : String) : FlagResponse :=
  if name = "stream" then .eventStream
  else
    match s.get name with
    | none => .notFound
    | some f => .ok f

end Vexil.Sidecar
