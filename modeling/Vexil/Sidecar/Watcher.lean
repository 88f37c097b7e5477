import Vexil.Kube.Cluster
import Vexil.Sidecar.FlagStore

/-!
# The sidecar's watcher

`startWatcher` of `sidecar/main.go`, against a cluster that other clients write
to. It lists the flags of its namespace once and puts them into the store. Then
it opens a watch, handles the events that arrive until the channel closes, and
opens the next one. A watch is opened without a resource version, so it starts
with an `Added` event for every flag there is, in some order, and goes on with
every later change. Events that have not been handled when a watch is lost are
never handled.

An event is one step, a reply of the API server is one step, and so is a write
of another client.
-/

namespace Vexil.Sidecar

open Vexil.Lib Vexil.Kube

/-- `watch.Event` for a flag. -/
inductive WatchEvent where
  | added (f : FeatureFlag)
  | modified (f : FeatureFlag)
  | deleted (f : FeatureFlag)
  deriving DecidableEq

/-- Where the watcher is. -/
inductive WatchPhase where
  | starting
  /-- The list has been read; these flags are still to be put into the store. -/
  | loading (items : List FeatureFlag)
  | disconnected
  /-- These events have been sent and not been handled. -/
  | connected (pending : List WatchEvent)
  deriving DecidableEq

structure Watcher where
  cluster : Cluster
  store : FlagStore := {}
  phase : WatchPhase := .starting

/-- The body of the loop over the events. -/
def FlagStore.handle (s : FlagStore) : WatchEvent → FlagStore
  | .added f | .modified f => s.set (resolveFlag f)
  | .deleted f => s.delete f.metadata.name

/-- The flags of the watched namespace. -/
def flagsIn (ns : String) (s : Cluster) : List FeatureFlag :=
  s.flags.rows.items.filter fun f => f.metadata.ns = ns

/-- What a watch of the namespace is sent about one flag. -/
def changeOf (ns : String) (k : ObjectKey) (s s' : Cluster) : List WatchEvent :=
  if k.ns = ns then
    match s.flags.get? k, s'.flags.get? k with
    | none, none => []
    | none, some f => [.added f]
    | some f, none => [.deleted f]
    | some f, some f' => if f' = f then [] else [.modified f']
  else []

inductive WatcherStep where
  /-- Another client writes. -/
  | write (w : OtherWrite)
  /-- The initial `List` is answered. -/
  | list
  /-- One round of the loop over the list, or its end. -/
  | load
  /-- A `Watch` is opened; the existing flags arrive in this order. -/
  | connect (order : List FeatureFlag)
  /-- One event is handled. -/
  | deliver
  /-- The channel of the watch closes. -/
  | disconnect

def Watcher.next (ns : String) (st : Watcher) : WatcherStep → Option Watcher
  | .write w =>
      let s' := w.apply st.cluster
      let sent := w.flagKey.elim [] fun k => changeOf ns k st.cluster s'
      some { st with
        cluster := s'
        phase :=
          match st.phase with
          | .connected pending => .connected (pending ++ sent)
          | phase => phase }
  | .list =>
      match st.phase with
      | .starting => some { st with phase := .loading (flagsIn ns st.cluster) }
      | _ => none
  | .load =>
      match st.phase with
      | .loading [] => some { st with phase := .disconnected }
      | .loading (f :: fs) => some { st with
          store := st.store.set (resolveFlag f)
          phase := .loading fs }
      | _ => none
  | .connect order =>
      match st.phase with
      | .disconnected =>
          if order.Perm (flagsIn ns st.cluster) then
            some { st with phase := .connected (order.map .added) }
          else none
      | _ => none
  | .deliver =>
      match st.phase with
      | .connected (e :: pending) => some { st with
          store := st.store.handle e
          phase := .connected pending }
      | _ => none
  | .disconnect =>
      match st.phase with
      | .connected _ => some { st with phase := .disconnected }
      | _ => none

/-- A sidecar that has just been started. -/
def Watcher.start (s : Cluster) : Watcher where
  cluster := s

def WatcherNext (ns : String) (st : Watcher) (e : WatcherStep) (st' : Watcher) :
    Prop := st.next ns e = some st'

end Vexil.Sidecar
