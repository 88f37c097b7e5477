import Vexil.Server.Http

/-!
# Flags over HTTP

`handlers/flags.go`. `Update` and `Toggle` read the whole object, change a part
of its spec and write the whole object back. What they write carries the
`resourceVersion` they read, and that is all that protects them from each other.
-/

namespace Vexil.Server

open Vexil.Lib Vexil.Kube

def flagToResponse (f : FeatureFlag) (clusterID : String) : FlagResponse where
  name := f.metadata.name
  ns := f.metadata.ns
  clusterID := clusterID
  description := f.spec.description
  type := f.spec.type
  defaultValue := f.spec.defaultValue
  currentValue := f.status.currentValue
  phase := f.status.phase
  disabled := f.spec.disabled
  targetedWorkloads := f.status.targetedWorkloads
  lifecycle := f.spec.lifecycle
  delivery := f.spec.delivery
  rules := f.spec.rules
  createdAt := f.metadata.creationTimestamp
  updatedAt := f.status.lastUpdated

/-- The audit record of a request about one flag. -/
def flagAudit (action ns name cluster : String) : AuditEvent where
  action := action
  resource := "featureflag"
  resourceId := ns ++ "/" ++ name
  cluster := cluster

/-- `flag.Spec.F = *updates.F`, for a field that is there. -/
def setField {α β : Type} (update : Option α) (set : β → α → β) (b : β) : β :=
  match update with
  | none => b
  | some a => set b a

/-- The assignments of `Update`, one after another. -/
def FlagUpdates.assign (updates : FlagUpdates) (flag : FeatureFlag) :
    FeatureFlag :=
  let flag := setField updates.description
    (fun f (v : String) => { f with spec.description := v }) flag
  let flag := setField updates.defaultValue
    (fun f (v : String) => { f with spec.defaultValue := v }) flag
  let flag := setField updates.disabled
    (fun f (v : Bool) => { f with spec.disabled := v }) flag
  let flag := setField updates.delivery
    (fun f (v : DeliverySpec) => { f with spec.delivery := some v }) flag
  setField updates.rules
    (fun f (v : List TargetingRule) => { f with spec.rules := v }) flag

/-- The assignment of `Toggle`. -/
def toggleValue (flag : FeatureFlag) : FeatureFlag :=
  if flag.spec.defaultValue = "true" then
    { flag with spec.defaultValue := "false" }
  else { flag with spec.defaultValue := "true" }

namespace FlagHandler

def clusterRequired : Response :=
  writeError 400 "clusterId query parameter is required"

/-- How `Get`, `Update`, `Delete` and `Toggle` begin: the cluster, and the flag
as it is now. -/
def withFlag (r : Request) (pathValue : String → String)
    (k : Endpoint → FeatureFlag → ServerProg Response) : ServerProg Response :=
  let clusterID := r.query "clusterId"
  if clusterID = "" then .ret clusterRequired
  else
    withClient clusterID "cluster not found" fun client =>
      .call (.kube client
          (.getFlag ⟨pathValue "namespace", pathValue "name"⟩)) fun
        | .error _ => .ret (writeError 404 "flag not found")
        | .ok flag => k client flag

/-- How `Update` and `Toggle` end: the object is written back. -/
def writeFlag (r : Request) (pathValue : String → String)
    (verb action : String) (client : Endpoint) (flag : FeatureFlag) :
    ServerProg Response :=
  let clusterID := r.query "clusterId"
  .call (.kube client (.updateFlag flag)) fun
    | .error err => .ret (writeError 500 (verb ++ err.message))
    | .ok flag =>
        recordAudit (flagAudit action (pathValue "namespace")
            (pathValue "name") clusterID) <|
          .ret (writeJSON 200 (.flag (flagToResponse flag clusterID)))

def get : Handler := fun r _ pathValue =>
  withFlag r pathValue fun _ flag =>
    .ret (writeJSON 200 (.flag (flagToResponse flag (r.query "clusterId"))))

def update : Handler := fun r _ pathValue =>
  withFlag r pathValue fun client flag =>
    match r.body.updates with
    | none => .ret (writeError 400 "invalid request body")
    | some updates =>
        writeFlag r pathValue "failed to update flag: " "update" client
          (updates.assign flag)

def toggle : Handler := fun r _ pathValue =>
  withFlag r pathValue fun client flag =>
    if flag.spec.type ≠ .boolean then
      .ret (writeError 400 "toggle is only supported for boolean flags")
    else
      writeFlag r pathValue "failed to toggle flag: " "toggle" client
        (toggleValue flag)

def delete : Handler := fun r _ pathValue =>
  withFlag r pathValue fun client flag =>
    .call (.kube client (.deleteFlag flag.metadata.objectKey)) fun
      | .error err =>
          .ret (writeError 500 ("failed to delete flag: " ++ err.message))
      | .ok _ =>
          recordAudit (flagAudit "delete" (pathValue "namespace")
              (pathValue "name") (r.query "clusterId")) <|
            .ret { status := 204 }

/-- The object `Create` asks for. -/
def newFlag (req : CreateFlagRequest) : FeatureFlag where
  metadata := { name := req.name, ns := req.ns }
  spec :=
    { description := req.description
      type := req.type
      defaultValue := req.defaultValue
      delivery := req.delivery
      lifecycle := .active }

def create : Handler := fun r _ _ =>
  match r.body.createFlag with
  | none => .ret (writeError 400 "invalid request body")
  | some req =>
      if req.name = "" ∨ req.ns = "" ∨ req.clusterID = "" then
        .ret (writeError 400 "name, namespace, and clusterId are required")
      else
        withClient req.clusterID ("cluster not found: " ++ req.clusterID)
          fun client =>
            .call (.kube client (.createFlag (newFlag req))) fun
              | .error err => .ret
                  (writeError 500 ("failed to create flag: " ++ err.message))
              | .ok flag =>
                  recordAudit (flagAudit "create" req.ns req.name
                      req.clusterID) <|
                    .ret (writeJSON 201
                      (.flag (flagToResponse flag req.clusterID)))

/-- The loop of `List` over the clusters: one that cannot be asked is left
out. -/
def listClusters (clusterID ns : String) :
    List String → ServerProg (List FlagResponse)
  | [] => .ret []
  | cid :: rest =>
      if clusterID ≠ "" ∧ cid ≠ clusterID then listClusters clusterID ns rest
      else
        .call (.clusters (.getClient cid)) fun
          | .error _ => listClusters clusterID ns rest
          | .ok client =>
              .call (.kube client (.listFlags none)) fun
                | .error _ => listClusters clusterID ns rest
                | .ok items =>
                    (listClusters clusterID ns rest).map fun flags =>
                      (items.filter fun f => ns = "" ∨ f.metadata.ns = ns).map
                        (flagToResponse · cid) ++ flags

def list : Handler := fun r _ _ =>
  .call (.clusters .clusterIDs) fun clusterIDs =>
    (listClusters (r.query "clusterId") (r.query "namespace") clusterIDs).map
      fun flags => writeJSON 200 (.flags flags)

end FlagHandler

end Vexil.Server
