import Vexil.Operator.System
import Vexil.Sidecar.Watcher

/-!
# From the declared flag to the sidecar's map

The whole way of a value, as one system. Any number of reconciles run against
the cluster, a call at a time and with reads from caches of any age; other
clients write what they like; and the sidecar lists, watches, loses its watch
and opens the next one. A step of the cluster, whoever takes it, is sent to the
watch that is open at that moment.
-/

namespace Vexil.Sidecar

open Vexil.Lib Vexil.Kube

/-- The flag a call is about, if it can change one. -/
def callFlagKey : KubeCall → Option ObjectKey
  | .createFlag f | .updateFlag f | .updateFlagStatus f =>
      some f.metadata.objectKey
  | .deleteFlag key => some key
  | _ => none

/-- The flag a step of the cluster is about. -/
def stepFlagKey {ι : Type} : SystemLabel ι → Option ObjectKey
  | .own _ e => callFlagKey e.call
  | .other w => w.flagKey

/-- The cluster moves on to `s'`, and an open watch is sent the change. -/
def Watcher.observe (ns : String) (st : Watcher) (key : Option ObjectKey)
    (s' : Cluster) : Watcher :=
  { st with
    cluster := s'
    phase :=
      match st.phase with
      | .connected pending => .connected
          (pending ++ key.elim [] fun k => changeOf ns k st.cluster s')
      | phase => phase }

/-- A step of the cluster, or one of the sidecar. -/
inductive PipelineLabel (ι : Type) where
  | cluster (l : SystemLabel ι)
  | sidecar (e : WatcherStep)

/-- The writes of other clients are steps of the cluster here. -/
def PipelineStep {ι : Type} (ns : String) (st : Watcher) :
    PipelineLabel ι → Watcher → Prop
  | .cluster l, st' => ∃ s', SystemStep st.cluster l s' ∧
      st' = st.observe ns (stepFlagKey l) s'
  | .sidecar e, st' => (∀ w, e ≠ .write w) ∧ WatcherNext ns st e st'

/-- What happened at the cluster. -/
def clusterLabels {ι : Type} (ls : List (PipelineLabel ι)) :
    List (SystemLabel ι) :=
  ls.filterMap fun
    | .cluster l => some l
    | .sidecar _ => none

end Vexil.Sidecar
