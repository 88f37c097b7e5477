import Vexil.Kube.Types

/-!
# The schema of the custom resource

`config/crd/bases/vexil.io_featureflags.yaml`: the specs that the API server
admits, the defaults it fills in, and what it prunes. A selector has match
expressions only where the schema lists them.

A default stands in for a field that is missing. A Go client leaves a field with
`omitempty` and the zero value out of what it sends, so what it writes back gets
the default where the stored object had an explicit zero. `stored_eq_self_iff`
says which specs a client can read and send back as they are.
-/

namespace Vexil.Kube

/-! ## What is stored of a spec that a Go client sends -/

/-- A selector where the schema has match labels only. -/
def prunedSelector (selector : Option LabelSelector) : Option LabelSelector :=
  selector.map fun s => { s with matchExpressions := [] }

def ConfigMapDelivery.stored (d : ConfigMapDelivery) : ConfigMapDelivery :=
  { d with selector := prunedSelector d.selector }

/-- A port that is 0 was not sent. -/
def SidecarDelivery.stored (d : SidecarDelivery) : SidecarDelivery where
  port := if d.port = 0 then 8514 else d.port
  selector := prunedSelector d.selector

def DeliverySpec.stored (d : DeliverySpec) : DeliverySpec :=
  { d with
    configMap := d.configMap.map ConfigMapDelivery.stored
    sidecar := d.sidecar.map SidecarDelivery.stored }

def FeatureFlagSpec.stored (spec : FeatureFlagSpec) : FeatureFlagSpec :=
  { spec with
    delivery := spec.delivery.map DeliverySpec.stored
    lifecycle :=
      if spec.lifecycle = .unset then .active else spec.lifecycle }

/-- The object that the server has of what a Go client sends. -/
def FeatureFlag.received (f : FeatureFlag) : FeatureFlag :=
  { f with spec := f.spec.stored }

@[simp] theorem metadata_received (f : FeatureFlag) :
    f.received.metadata = f.metadata := rfl

/-! ## What arrives as it is -/

/-- There is nothing to prune. -/
def noExpressions (selector : Option LabelSelector) : Bool :=
  selector.all (·.matchExpressions = [])

/-- Nothing is pruned, and the port of a sidecar is not an explicit 0. -/
def DeliverySpec.sendable (d : DeliverySpec) : Bool :=
  (d.configMap.all fun c => noExpressions c.selector) &&
    d.sidecar.all fun s => s.port ≠ 0 && noExpressions s.selector

def FeatureFlagSpec.sendable (spec : FeatureFlagSpec) : Bool :=
  spec.delivery.all DeliverySpec.sendable && spec.lifecycle ≠ .unset

theorem prunedSelector_eq_self_iff (selector : Option LabelSelector) :
    prunedSelector selector = selector ↔ noExpressions selector = true := by
  cases selector with
  | none => simp [prunedSelector, noExpressions]
  | some s =>
      obtain ⟨labels, expressions⟩ := s
      simp [prunedSelector, noExpressions, eq_comm]

theorem DeliverySpec.stored_eq_self_iff (d : DeliverySpec) :
    d.stored = d ↔ d.sendable = true := by
  obtain ⟨envVar, configMap, sidecar⟩ := d
  have hconfigMap : configMap.map ConfigMapDelivery.stored = configMap ↔
      (configMap.all fun c => noExpressions c.selector) = true := by
    cases configMap with
    | none => simp
    | some c =>
        obtain ⟨name, key, selector⟩ := c
        simp [ConfigMapDelivery.stored, prunedSelector_eq_self_iff]
  have hsidecar : sidecar.map SidecarDelivery.stored = sidecar ↔
      (sidecar.all fun s => s.port ≠ 0 && noExpressions s.selector) = true := by
    cases sidecar with
    | none => simp
    | some s =>
        obtain ⟨port, selector⟩ := s
        have hport : (if port = 0 then 8514 else port) = port ↔ port ≠ 0 := by
          split
          · next h => simp [h]
          · next h => simp [h]
        simp [SidecarDelivery.stored, prunedSelector_eq_self_iff, hport]
  simp only [stored, sendable, DeliverySpec.mk.injEq, Bool.and_eq_true,
    true_and]
  exact and_congr hconfigMap hsidecar

theorem FeatureFlagSpec.stored_eq_self_iff (spec : FeatureFlagSpec) :
    spec.stored = spec ↔ spec.sendable = true := by
  have hdelivery : spec.delivery.map DeliverySpec.stored = spec.delivery ↔
      spec.delivery.all DeliverySpec.sendable = true := by
    cases spec.delivery with
    | none => simp
    | some d => simpa using d.stored_eq_self_iff
  have hlifecycle : (if spec.lifecycle = .unset then .active
      else spec.lifecycle) = spec.lifecycle ↔ spec.lifecycle ≠ .unset := by
    split
    · next h => simp [h]
    · next h => simp [h]
  rw [sendable, Bool.and_eq_true, ← hdelivery, decide_eq_true_iff,
    ← hlifecycle]
  obtain ⟨⟩ := spec
  simp [stored]

/-! ## What is admitted -/

def FlagType.inEnum : FlagType → Bool
  | .other _ => false
  | .boolean | .string | .integer | .json => true

def ConditionOperator.inEnum : ConditionOperator → Bool
  | .other _ => false
  | .eq | .neq | .in | .notin | .matches => true

def RolloutStrategy.inEnum : RolloutStrategy → Bool
  | .other _ => false
  | .immediate | .canary | .linear => true

/-- `minimum: 0`, `maximum: 100`. -/
def isPercentage (n : Int) : Bool := 0 ≤ n ∧ n ≤ 100

/-- The selector is there, and has nothing that would be pruned. -/
def labelsOnly (selector : Option LabelSelector) : Bool :=
  selector.any (·.matchExpressions = [])

def TargetingRule.admitted (r : TargetingRule) : Bool :=
  r.percentage.all isPercentage && r.conditions.all fun c => c.operator.inEnum

def DeliverySpec.admitted (d : DeliverySpec) : Bool :=
  (d.envVar.all fun e => e.selector.isSome) &&
    (d.configMap.all fun c => labelsOnly c.selector) &&
    d.sidecar.all fun s => labelsOnly s.selector

def RolloutSpec.admitted (r : RolloutSpec) : Bool :=
  r.strategy.inEnum && r.steps.all fun step => isPercentage step.percentage

/-- A spec that can be stored. -/
def FeatureFlagSpec.admitted (spec : FeatureFlagSpec) : Bool :=
  spec.type.inEnum && spec.lifecycle ≠ .unset &&
    spec.rules.all TargetingRule.admitted &&
    spec.delivery.all DeliverySpec.admitted &&
    spec.rollout.all RolloutSpec.admitted

end Vexil.Kube
