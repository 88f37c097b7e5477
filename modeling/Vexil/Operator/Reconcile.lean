import Vexil.Kube.Cluster
import Vexil.Operator.Inject

/-!
# The FeatureFlag controller

`internal/operator/controllers/featureflag_controller.go`, call by call. A
reconcile is a program over the Kubernetes API, so what it does when a call
fails, or answers from a stale cache, is in the program and not in the model of
the cluster. The wall clock is read once, when the status is computed, and is
an argument here.

A reconcile that fails to deliver does not return the error. It writes a
`Failed` status, and only an error of that last write reaches the caller.
-/

namespace Vexil.Operator

open Vexil.Lib Vexil.Kube

abbrev OpProg (α : Type) := Prog KubeCall KubeCall.Reply α

/-- `ctrl.Result`; the controller never asks for a requeue. -/
structure Result where
  requeueAfter : Nat := 0
  deriving DecidableEq, Repr

/-- The name of the variable a flag is injected as. -/
def envVarName (flag : FeatureFlag) (delivery : EnvVarDelivery) : String :=
  if delivery.name = "" then
    "FLAG_" ++ toUpper (replaceAll flag.metadata.name '-' '_')
  else delivery.name

/-- The loop over the listed Deployments, from a count of those already done. -/
def updateDeployments (flagName envName value : String) :
    List Deployment → Nat → OpProg (Except String Nat)
  | [], targeted => .ret (.ok targeted)
  | d :: ds, targeted =>
      let r := injectDeployment flagName envName value d
      if r.2 then
        .call (.updateDeployment r.1) fun
          | .error err => .ret (.error ("updating deployment " ++
              d.metadata.name ++ ": " ++ err.message))
          | .ok _ => updateDeployments flagName envName value ds (targeted + 1)
      else updateDeployments flagName envName value ds (targeted + 1)

def deliverViaEnvVar [Apimachinery] (flag : FeatureFlag)
    (delivery : EnvVarDelivery) (value : String) :
    OpProg (Except String Nat) :=
  match Apimachinery.labelSelectorAsSelector delivery.selector with
  | .error err => .ret (.error ("invalid label selector: " ++ err))
  | .ok selector =>
      .call (.listDeployments flag.metadata.ns selector) fun
        | .error err => .ret (.error ("listing deployments: " ++ err.message))
        | .ok deployments =>
            updateDeployments flag.metadata.name (envVarName flag delivery)
              value deployments 0

/-- The label of a ConfigMap the operator created. -/
def managedBy : String := "app.kubernetes.io/managed-by"

/-- The ConfigMap the operator creates when there is none. -/
def newConfigMap (flag : FeatureFlag) (delivery : ConfigMapDelivery)
    (value : String) : ConfigMap where
  metadata := {
    name := delivery.configMapName
    ns := flag.metadata.ns
    labels := GoMap.single managedBy "vexil" }
  data := some (GoMap.single delivery.key value)

def deliverViaConfigMap (flag : FeatureFlag) (delivery : ConfigMapDelivery)
    (value : String) : OpProg (Except String Unit) :=
  .call (.getConfigMap ⟨flag.metadata.ns, delivery.configMapName⟩) fun
    | .error err =>
        if err.isNotFound then
          .call (.createConfigMap (newConfigMap flag delivery value)) fun
            | .error err => .ret (.error ("creating configmap: " ++ err.message))
            | .ok _ => .ret (.ok ())
        else .ret (.error ("getting configmap: " ++ err.message))
    | .ok cm =>
        let data := orEmpty cm.data
        if data.index delivery.key ≠ value then
          .call (.updateConfigMap
              { cm with data := some (data.insert delivery.key value) }) fun
            | .error err => .ret (.error ("updating configmap: " ++ err.message))
            | .ok _ => .ret (.ok ())
        else .ret (.ok ())

/-- The status `updateStatus` computes from a snapshot of the flag. -/
def newStatus (now : Nat) (flag : FeatureFlag) (phase : FlagPhase)
    (currentValue : String) (targetedWorkloads : Nat) : FeatureFlagStatus :=
  { flag.status with
    phase := phase
    currentValue := currentValue
    targetedWorkloads := targetedWorkloads
    lastUpdated := some now
    observedGeneration := flag.metadata.generation }

def updateStatus (now : Nat) (flag : FeatureFlag) (phase : FlagPhase)
    (currentValue : String) (targetedWorkloads : Nat) :
    OpProg (Except String Result) :=
  .call (.updateFlagStatus { flag with
      status := newStatus now flag phase currentValue targetedWorkloads }) fun
    | .error err => .ret (.error ("updating status: " ++ err.message))
    | .ok _ => .ret (.ok {})

/-- The delivery half of `Reconcile`: the number of workloads reached, or the
first error. -/
def deliver [Apimachinery] (flag : FeatureFlag) (effectiveValue : String) :
    OpProg (Except String Nat) :=
  match flag.spec.delivery with
  | none => .ret (.ok 0)
  | some delivery =>
      let viaEnvVar : OpProg (Except String Nat) :=
        match delivery.envVar with
        | none => .ret (.ok 0)
        | some envVar => deliverViaEnvVar flag envVar effectiveValue
      viaEnvVar.bind fun
        | .error err => .ret (.error err)
        | .ok targeted =>
            match delivery.configMap with
            | none => .ret (.ok targeted)
            | some configMap =>
                (deliverViaConfigMap flag configMap effectiveValue).map fun
                  | .error err => .error err
                  | .ok () => .ok targeted

/-- The rest of `Reconcile`, once the flag has been fetched. -/
def reconcileFlag [Apimachinery] (now : Nat) (flag : FeatureFlag) :
    OpProg (Except String Result) :=
  let effectiveValue := flag.spec.defaultValue
  if flag.spec.disabled then updateStatus now flag .disabled effectiveValue 0
  else
    (deliver flag effectiveValue).bind fun
      | .error _ => updateStatus now flag .failed effectiveValue 0
      | .ok targeted => updateStatus now flag .active effectiveValue targeted

/-- `FeatureFlagReconciler.Reconcile`. -/
def reconcile [Apimachinery] (now : Nat) (req : ObjectKey) :
    OpProg (Except String Result) :=
  .call (.getFlag req) fun
    | .error err =>
        if err.isNotFound then .ret (.ok {}) else .ret (.error err.message)
    | .ok flag => reconcileFlag now flag

/-! ## A flag and a workload to run things on -/

/-- Selects the Deployments of one application. -/
def sampleSelector (app : String) : LabelSelector where
  matchLabels := GoMap.single "app" app

def sampleFlag (delivery : DeliverySpec) : FeatureFlag where
  metadata := { name := "dark-mode", ns := "default", generation := 1 }
  spec := { type := .boolean, defaultValue := "true", delivery := some delivery }

def sampleDeployment (name app : String) (env : List EnvVar) : Deployment where
  metadata := { name := name, ns := "default", labels := GoMap.single "app" app }
  template := { containers := [{ name := "main", env := env }] }

end Vexil.Operator
