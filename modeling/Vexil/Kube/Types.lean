import Vexil.Lib.Go
import Vexil.Lib.Versioned

/-!
# The objects in a cluster

The custom resource of `pkg/apis/v1alpha1/featureflag_types.go` and the parts
of the built-in kinds that the operator, the API server and the sidecar read or
write. A field that no modelled function touches is left out.

A Go pointer that may be nil is an `Option`, and so is a map where the code
tells nil from empty. A string type with a fixed set of constants is an
enumeration; `other` is any text outside the set, where a request can carry one.
-/

namespace Vexil.Kube

open Vexil.Lib

/-! ## Metadata -/

/-- `client.ObjectKey`. -/
structure ObjectKey where
  ns : String
  name : String
  deriving DecidableEq, Repr

/-- `metav1.ObjectMeta`. The namespace is `ns`. -/
structure ObjectMeta where
  name : String
  ns : String
  labels : GoMap String := ∅
  resourceVersion : Nat := 0
  generation : Nat := 0
  creationTimestamp : Nat := 0
  deriving DecidableEq

def ObjectMeta.objectKey (m : ObjectMeta) : ObjectKey := ⟨m.ns, m.name⟩

/-- `metav1.LabelSelectorRequirement`. -/
structure LabelSelectorRequirement where
  key : String
  operator : String
  values : List String
  deriving DecidableEq

/-- `metav1.LabelSelector`. -/
structure LabelSelector where
  matchLabels : GoMap String := ∅
  matchExpressions : List LabelSelectorRequirement := []
  deriving DecidableEq

/-- What the code takes from `k8s.io/apimachinery`: `LabelSelectorAsSelector`,
whose result is kept as its `Matches` method. -/
class Apimachinery where
  labelSelectorAsSelector :
    Option LabelSelector → Except String (GoMap String → Bool)

/-- `Requirement.Matches`; `none` for an operator that does not exist. -/
def LabelSelectorRequirement.holds (r : LabelSelectorRequirement)
    (labels : GoMap String) : Option Bool :=
  match r.operator with
  | "In" => some ((labels.lookup r.key).any (· ∈ r.values))
  | "NotIn" => some ((labels.lookup r.key).all (· ∉ r.values))
  | "Exists" => some (labels.lookup r.key).isSome
  | "DoesNotExist" => some (labels.lookup r.key).isNone
  | _ => none

/-- `LabelSelectorAsSelector` without the syntax checks on keys and values, to
run the code on concrete objects with: no selector selects nothing, and the
requirements of one are joined by "and". -/
@[reducible] def labelSelectors : Apimachinery where
  labelSelectorAsSelector
    | none => .ok fun _ => false
    | some selector =>
        if selector.matchExpressions.all fun r => (r.holds ∅).isSome then
          .ok fun labels =>
            (selector.matchLabels.all fun k v => labels.lookup k = some v) &&
            selector.matchExpressions.all fun r => r.holds labels = some true
        else .error "not a valid label selector operator"

/-! ## FeatureFlag -/

inductive FlagType where
  | boolean | string | integer | json
  | other (text : String)
  deriving DecidableEq, Repr

/-- The constant as text. -/
def FlagType.text : FlagType → String
  | .boolean => "boolean"
  | .string => "string"
  | .integer => "integer"
  | .json => "json"
  | .other text => text

inductive FlagLifecycle where
  | unset | active | deprecated | archived
  deriving DecidableEq, Repr

/-- `unset` is the zero value, the phase of a flag without a status. -/
inductive FlagPhase where
  | unset | pending | active | rollingOut | failed | disabled
  deriving DecidableEq, Repr

inductive ConditionOperator where
  | eq | neq | in | notin | matches
  | other (text : String)
  deriving DecidableEq, Repr

inductive RolloutStrategy where
  | immediate | canary | linear
  | other (text : String)
  deriving DecidableEq, Repr

/-- `attr` is the `attribute` to evaluate. -/
structure Condition where
  attr : String
  operator : ConditionOperator
  values : List String
  deriving DecidableEq

structure TargetingRule where
  name : String
  conditions : List Condition
  value : String
  percentage : Option Int
  deriving DecidableEq

structure EnvVarDelivery where
  name : String := ""
  selector : Option LabelSelector
  deriving DecidableEq

structure ConfigMapDelivery where
  configMapName : String
  key : String
  selector : Option LabelSelector
  deriving DecidableEq

structure SidecarDelivery where
  port : Int := 0
  selector : Option LabelSelector
  deriving DecidableEq

structure DeliverySpec where
  envVar : Option EnvVarDelivery := none
  configMap : Option ConfigMapDelivery := none
  sidecar : Option SidecarDelivery := none
  deriving DecidableEq

structure RolloutStep where
  percentage : Int
  duration : Int
  deriving DecidableEq

structure RolloutSpec where
  strategy : RolloutStrategy
  steps : List RolloutStep
  deriving DecidableEq

structure FeatureFlagSpec where
  description : String := ""
  type : FlagType
  defaultValue : String
  rules : List TargetingRule := []
  delivery : Option DeliverySpec := none
  rollout : Option RolloutSpec := none
  disabled : Bool := false
  lifecycle : FlagLifecycle := .active
  deriving DecidableEq

structure FeatureFlagStatus where
  phase : FlagPhase := .unset
  currentValue : String := ""
  targetedWorkloads : Nat := 0
  lastUpdated : Option Nat := none
  observedGeneration : Nat := 0
  deriving DecidableEq

structure FeatureFlag where
  metadata : ObjectMeta
  spec : FeatureFlagSpec
  status : FeatureFlagStatus := {}
  deriving DecidableEq

/-! ## Workloads and ConfigMaps -/

/-- A key of a ConfigMap or a Secret. -/
structure KeySelector where
  name : String
  key : String
  deriving DecidableEq

/-- `corev1.EnvVarSource`; `fieldPath` is the path of a field reference. -/
structure EnvVarSource where
  configMapKeyRef : Option KeySelector := none
  secretKeyRef : Option KeySelector := none
  fieldPath : Option String := none
  deriving DecidableEq

structure EnvVar where
  name : String
  value : String := ""
  valueFrom : Option EnvVarSource := none
  deriving DecidableEq

/-- `corev1.EnvFromSource`: the names of the objects it refers to. -/
structure EnvFromSource where
  configMapRef : Option String := none
  secretRef : Option String := none
  deriving DecidableEq

structure Container where
  name : String
  image : String := ""
  env : List EnvVar := []
  envFrom : List EnvFromSource := []
  deriving DecidableEq

structure PodTemplate where
  annotations : Option (GoMap String) := none
  containers : List Container
  deriving DecidableEq

structure Deployment where
  metadata : ObjectMeta
  replicas : Option Int := none
  template : PodTemplate
  deriving DecidableEq

structure StatefulSet where
  metadata : ObjectMeta
  replicas : Option Int := none
  template : PodTemplate
  deriving DecidableEq

structure DaemonSet where
  metadata : ObjectMeta
  desiredNumberScheduled : Int := 0
  template : PodTemplate
  deriving DecidableEq

structure ConfigMap where
  metadata : ObjectMeta
  data : Option (GoMap String) := none
  deriving DecidableEq

/-! Every kind is filed under its namespaced name and versioned by its
`resourceVersion`. -/

instance : Versioned FeatureFlag ObjectKey where
  key f := f.metadata.objectKey
  version f := f.metadata.resourceVersion
  withVersion f n := { f with metadata.resourceVersion := n }
  key_withVersion _ _ := rfl
  version_withVersion _ _ := rfl

instance : Versioned Deployment ObjectKey where
  key d := d.metadata.objectKey
  version d := d.metadata.resourceVersion
  withVersion d n := { d with metadata.resourceVersion := n }
  key_withVersion _ _ := rfl
  version_withVersion _ _ := rfl

instance : Versioned StatefulSet ObjectKey where
  key s := s.metadata.objectKey
  version s := s.metadata.resourceVersion
  withVersion s n := { s with metadata.resourceVersion := n }
  key_withVersion _ _ := rfl
  version_withVersion _ _ := rfl

instance : Versioned DaemonSet ObjectKey where
  key s := s.metadata.objectKey
  version s := s.metadata.resourceVersion
  withVersion s n := { s with metadata.resourceVersion := n }
  key_withVersion _ _ := rfl
  version_withVersion _ _ := rfl

instance : Versioned ConfigMap ObjectKey where
  key c := c.metadata.objectKey
  version c := c.metadata.resourceVersion
  withVersion c n := { c with metadata.resourceVersion := n }
  key_withVersion _ _ := rfl
  version_withVersion _ _ := rfl

end Vexil.Kube
