import Vexil.Kube.Snapshots
import Vexil.Operator.Reconcile

/-!
# Reconciles among other clients

Any number of reconciles run here at once, one call at a time, with reads that
may be answered from a cache of any age and other clients writing whatever they
like in between. Nothing is known about the state a reconcile finds when its
next call is served. What is known is where the arguments of that call come
from, and `OperatorCall` says it: each object the operator writes is one that it
read before, edited as the flag it read asks for.

The rest is the server's. A snapshot of any age is a version the object once
had, and an `Update` is only accepted if that version is still the stored one.
-/

namespace Vexil.Operator

open Vexil.Lib Vexil.Kube

section
variable [Apimachinery]

/-- The calls of a reconcile of `req`, given the replies it has had. -/
def OperatorCall (now : Nat) (req : ObjectKey) (h : List KubeEvent) :
    KubeCall → Prop
  | .getFlag _ | .listDeployments _ _ | .getConfigMap _ => True
  | .updateDeployment d' => ∃ f delivery selector ds d,
      ⟨.getFlag req, .ok f⟩ ∈ h ∧
      ⟨.listDeployments f.metadata.ns selector, .ok ds⟩ ∈ h ∧ d ∈ ds ∧
      f.spec.delivery.bind DeliverySpec.envVar = some delivery ∧
      Apimachinery.labelSelectorAsSelector delivery.selector = .ok selector ∧
      d' = injected f.metadata.name (envVarName f delivery)
        f.spec.defaultValue d
  | .createConfigMap cm => ∃ f delivery,
      ⟨.getFlag req, .ok f⟩ ∈ h ∧
      f.spec.delivery.bind DeliverySpec.configMap = some delivery ∧
      cm = newConfigMap f delivery f.spec.defaultValue
  | .updateConfigMap cm' => ∃ f delivery cm,
      ⟨.getFlag req, .ok f⟩ ∈ h ∧
      ⟨.getConfigMap ⟨f.metadata.ns, delivery.configMapName⟩, .ok cm⟩ ∈ h ∧
      f.spec.delivery.bind DeliverySpec.configMap = some delivery ∧
      cm' = { cm with data := some ((orEmpty cm.data).insert delivery.key
        f.spec.defaultValue) }
  | .updateFlagStatus f' => ∃ f phase count,
      ⟨.getFlag req, .ok f⟩ ∈ h ∧
      (phase = FlagPhase.disabled ↔ f.spec.disabled = true) ∧
      f' = { f with
        status := newStatus now f phase f.spec.defaultValue count }
  | _ => False

theorem updateDeployments_along {now : Nat} {req : ObjectKey}
    {f : FeatureFlag} {delivery : EnvVarDelivery}
    {selector : GoMap String → Bool} {all ds : List Deployment} {count : Nat}
    {h : List KubeEvent} (hflag : ⟨.getFlag req, .ok f⟩ ∈ h)
    (hlist : ⟨.listDeployments f.metadata.ns selector, .ok all⟩ ∈ h)
    (hdel : f.spec.delivery.bind DeliverySpec.envVar = some delivery)
    (hsel : Apimachinery.labelSelectorAsSelector delivery.selector =
      .ok selector) (hds : ∀ d ∈ ds, d ∈ all) :
    Prog.Along (OperatorCall now req) h (updateDeployments f.metadata.name
      (envVarName f delivery) f.spec.defaultValue ds count) := by
  induction ds generalizing h count with
  | nil => exact Prog.along_ret
  | cons d ds ih =>
      obtain ⟨hd, hds⟩ := List.forall_mem_cons.mp hds
      rw [updateDeployments]
      split
      · refine ⟨⟨f, delivery, selector, all, d, hflag, hlist, hd, hdel, hsel,
          rfl⟩, fun r => ?_⟩
        cases r with
        | error err => exact Prog.along_ret
        | ok d' =>
            exact ih (List.mem_append_left _ hflag)
              (List.mem_append_left _ hlist) hds
      · exact ih hflag hlist hds

theorem deliverViaEnvVar_along {now : Nat} {req : ObjectKey} {f : FeatureFlag}
    {delivery : EnvVarDelivery} {h : List KubeEvent}
    (hflag : ⟨.getFlag req, .ok f⟩ ∈ h)
    (hdel : f.spec.delivery.bind DeliverySpec.envVar = some delivery) :
    Prog.Along (OperatorCall now req) h
      (deliverViaEnvVar f delivery f.spec.defaultValue) := by
  unfold deliverViaEnvVar
  split
  · exact Prog.along_ret
  · next selector hsel =>
      refine ⟨trivial, fun r => ?_⟩
      cases r with
      | error err => exact Prog.along_ret
      | ok ds =>
          exact updateDeployments_along (List.mem_append_left _ hflag)
            (List.mem_append_right _ (List.mem_singleton_self _)) hdel hsel
            fun d hd => hd

theorem deliverViaConfigMap_along {now : Nat} {req : ObjectKey}
    {f : FeatureFlag} {delivery : ConfigMapDelivery} {h : List KubeEvent}
    (hflag : ⟨.getFlag req, .ok f⟩ ∈ h)
    (hdel : f.spec.delivery.bind DeliverySpec.configMap = some delivery) :
    Prog.Along (OperatorCall now req) h
      (deliverViaConfigMap f delivery f.spec.defaultValue) := by
  refine ⟨trivial, fun r => ?_⟩
  have hflag' := List.mem_append_left
    [⟨.getConfigMap ⟨f.metadata.ns, delivery.configMapName⟩, r⟩] hflag
  cases r with
  | error err =>
      dsimp only
      split
      · refine ⟨⟨f, delivery, hflag', hdel, rfl⟩, fun r => ?_⟩
        cases r with
        | error err => exact Prog.along_ret
        | ok cm => exact Prog.along_ret
      · exact Prog.along_ret
  | ok cm =>
      dsimp only
      split
      · refine ⟨⟨f, delivery, cm, hflag',
          List.mem_append_right _ (List.mem_singleton_self _), hdel, rfl⟩,
          fun r => ?_⟩
        cases r with
        | error err => exact Prog.along_ret
        | ok cm' => exact Prog.along_ret
      · exact Prog.along_ret

theorem deliver_along {now : Nat} {req : ObjectKey} {f : FeatureFlag}
    {h : List KubeEvent} (hflag : ⟨.getFlag req, .ok f⟩ ∈ h) :
    Prog.Along (OperatorCall now req) h (deliver f f.spec.defaultValue) := by
  unfold deliver
  split
  · exact Prog.along_ret
  · next delivery hdel =>
      refine Prog.Along.bind ?_ fun tr r _ => ?_
      · cases henv : delivery.envVar with
        | none => exact Prog.along_ret
        | some envVar =>
            exact deliverViaEnvVar_along hflag (by simp [hdel, henv])
      · cases r with
        | error err => exact Prog.along_ret
        | ok targeted =>
            cases hcm : delivery.configMap with
            | none => exact Prog.along_ret
            | some configMap =>
                refine Prog.Along.bind ?_ fun _ _ _ => Prog.along_ret
                exact deliverViaConfigMap_along (List.mem_append_left _ hflag)
                  (by simp [hdel, hcm])

omit [Apimachinery] in
theorem updateStatus_calls {P : List KubeEvent → KubeCall → Prop} {now : Nat}
    {f : FeatureFlag} {phase : FlagPhase} {value : String} {count : Nat}
    {h : List KubeEvent}
    (hP : P h (.updateFlagStatus { f with
      status := newStatus now f phase value count })) :
    Prog.Along P h (updateStatus now f phase value count) := by
  refine ⟨hP, fun r => ?_⟩
  cases r with
  | error err => exact Prog.along_ret
  | ok f' => exact Prog.along_ret

/-- Each call of a reconcile has its origin in the replies before it. -/
theorem reconcile_along (now : Nat) (req : ObjectKey) :
    Prog.Along (OperatorCall now req) [] (reconcile now req) := by
  refine ⟨trivial, fun r => ?_⟩
  cases r with
  | error err =>
      dsimp only
      split
      · exact Prog.along_ret
      · exact Prog.along_ret
  | ok f =>
      have hflag : (⟨.getFlag req, .ok f⟩ : KubeEvent) ∈
          ([] ++ [⟨.getFlag req, .ok f⟩] : List KubeEvent) := by simp
      show Prog.Along (OperatorCall now req) _ (reconcileFlag now f)
      unfold reconcileFlag
      dsimp only
      split
      · next hdis =>
          exact updateStatus_calls ⟨f, _, _, hflag, by simp [hdis], rfl⟩
      · next hdis =>
          refine Prog.Along.bind (deliver_along hflag) fun tr r _ => ?_
          have hflag' := List.mem_append_left tr hflag
          cases r with
          | error err =>
              exact updateStatus_calls ⟨f, _, _, hflag', by simp [hdis], rfl⟩
          | ok targeted =>
              exact updateStatus_calls ⟨f, _, _, hflag', by simp [hdis], rfl⟩

end

end Vexil.Operator
