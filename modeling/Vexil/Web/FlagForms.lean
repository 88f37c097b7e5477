import Vexil.Lib.Js
import Vexil.Server.Http

/-!
# The flag forms of the console

`CreateFlagModal.tsx` and `EditFlagModal.tsx`: the state of each form, the edits
that its inputs allow, and the request that it sends. A request is given as the
handler decodes it. A property that is undefined, or is missing, leaves the
field out.

Both forms build the delivery alike. The selector is typed as one text, and
what a label has after a second `=` is lost there, as is a label without any.
-/

namespace Vexil.Web

open Vexil.Lib Vexil.Kube Vexil.Server

/-! ## The delivery -/

inductive DeliveryMethod where
  | envVar | configMap | sidecar | none
  deriving DecidableEq, Repr

/-- The fields of a form that are about the delivery. -/
structure DeliveryForm where
  deliveryMethod : DeliveryMethod
  envVarName : String := ""
  selectorLabels : String := ""
  configMapName : String := ""
  configMapKey : String := ""
  deriving DecidableEq

/-- An array as an entry: its first element, and its second if there is one. -/
def entryOf (parts : List String) : String × Option String :=
  (parts.headD "", parts[1]?)

/-- `Object.fromEntries(s.split(',').map((l) => l.trim().split('=')))`. -/
def labelEntries (selectorLabels : String) : GoMap (Option String) :=
  Js.fromEntries ((split selectorLabels ',').map fun l =>
    entryOf (split (Js.trim l) '='))

/-- The labels of the text, as they arrive. -/
def labelsOf (selectorLabels : String) : GoMap String :=
  Js.stringified (labelEntries selectorLabels)

def selectorOf (labels : GoMap String) : Option LabelSelector :=
  some { matchLabels := labels }

/-- `delivery` of the two mutations; nothing is sent when it has no key. -/
def DeliveryForm.delivery (form : DeliveryForm) (flagName : String) :
    Option DeliverySpec :=
  match form.deliveryMethod with
  | .envVar =>
      if form.selectorLabels = "" then .none
      else
        let envVar : EnvVarDelivery :=
          { name := form.envVarName
            selector := selectorOf (labelsOf form.selectorLabels) }
        some { envVar := some envVar }
  | .configMap =>
      if form.configMapName = "" then .none
      else
        let labels :=
          if form.selectorLabels = "" then ∅ else labelsOf form.selectorLabels
        let configMap : ConfigMapDelivery :=
          { configMapName := form.configMapName
            key := Js.orElse form.configMapKey flagName
            selector := selectorOf labels }
        some { configMap := some configMap }
  | .sidecar =>
      if form.selectorLabels = "" then .none
      else
        let sidecar : SidecarDelivery :=
          { selector := selectorOf (labelsOf form.selectorLabels) }
        some { sidecar := some sidecar }
  | .none => .none

/-! ## Creating a flag -/

structure CreateForm extends DeliveryForm where
  name : String := ""
  ns : String := "default"
  clusterID : String := ""
  type : FlagType := .boolean
  defaultValue : String := "false"
  description : String := ""
  deliveryMethod := .envVar
  deriving DecidableEq

/-- The body of the POST. -/
def CreateForm.request (form : CreateForm) : CreateFlagRequest where
  name := form.name
  ns := form.ns
  clusterID := form.clusterID
  description := (Js.orUndefined form.description).getD ""
  type := form.type
  defaultValue := form.defaultValue
  delivery := form.delivery form.name

/-! ## Editing a flag -/

structure EditForm extends DeliveryForm where
  description : String
  defaultValue : String
  disabled : Bool
  rules : List TargetingRule
  deriving DecidableEq

/-- The labels as text, in the order in which they are enumerated. -/
def labelsText (order : GoMap String → List String) (labels : GoMap String) :
    String :=
  String.intercalate "," ((order labels).map fun k =>
    k ++ "=" ++ labels.index k)

/-- `selector?.matchLabels` of a delivery that may be missing: an empty map is
not sent, so it is undefined too. -/
def matchLabelsOf (selector : Option LabelSelector) : Option (GoMap String) :=
  (selector.map LabelSelector.matchLabels).filter (· ≠ ∅)

/-- The form as it opens on a flag. -/
def EditForm.open (order : GoMap String → List String) (flag : FlagResponse) :
    EditForm :=
  let envVar := flag.delivery.bind DeliverySpec.envVar
  let configMap := flag.delivery.bind DeliverySpec.configMap
  let sidecar := flag.delivery.bind DeliverySpec.sidecar
  { description := flag.description
    defaultValue := flag.defaultValue
    disabled := flag.disabled
    deliveryMethod :=
      if envVar.isSome then .envVar
      else if configMap.isSome then .configMap
      else if sidecar.isSome then .sidecar
      else .none
    envVarName := (envVar.map EnvVarDelivery.name).getD ""
    selectorLabels :=
      match matchLabelsOf (envVar.bind EnvVarDelivery.selector) with
      | some labels => labelsText order labels
      | .none =>
          match matchLabelsOf (configMap.bind ConfigMapDelivery.selector) with
          | some labels => labelsText order labels
          | .none => ""
    configMapName := (configMap.map ConfigMapDelivery.configMapName).getD ""
    configMapKey := (configMap.map ConfigMapDelivery.key).getD ""
    rules := flag.rules }

/-- The body of the PUT. -/
def EditForm.updates (form : EditForm) (flag : FlagResponse) : FlagUpdates where
  description := Js.orUndefined form.description
  defaultValue := some form.defaultValue
  disabled := some form.disabled
  delivery := form.delivery flag.name
  rules := if form.rules = [] then .none else some form.rules

/-! ## The edits -/

/-- What a user can do to the form; rules and conditions are named by their
place. -/
inductive FormEdit where
  | description (v : String)
  | defaultValue (v : String)
  | disabled (v : Bool)
  | deliveryMethod (v : DeliveryMethod)
  | envVarName (v : String)
  | selectorLabels (v : String)
  | configMapName (v : String)
  | configMapKey (v : String)
  | addRule
  | removeRule (index : Nat)
  | ruleName (index : Nat) (v : String)
  | ruleValue (index : Nat) (v : String)
  | addCondition (ruleIdx : Nat)
  | removeCondition (ruleIdx condIdx : Nat)
  | attribute (ruleIdx condIdx : Nat) (v : String)
  | operator (ruleIdx condIdx : Nat) (v : ConditionOperator)
  | values (ruleIdx condIdx : Nat) (text : String)
  deriving DecidableEq

/-- The rule that `addRule` appends to `n` others. -/
def newRule (type : FlagType) (n : Nat) : TargetingRule where
  name := "Rule " ++ toString (n + 1)
  conditions := [{ attr := "label:tier", operator := .eq, values := [""] }]
  value := if type = .boolean then "true" else ""
  percentage := .none

/-- The condition that `addCondition` appends. -/
def newCondition : Condition where
  attr := ""
  operator := .eq
  values := [""]

def updateRule (rules : List TargetingRule) (index : Nat)
    (set : TargetingRule → TargetingRule) : List TargetingRule :=
  rules.modify index set

def updateCondition (rules : List TargetingRule) (ruleIdx condIdx : Nat)
    (set : Condition → Condition) : List TargetingRule :=
  rules.modify ruleIdx fun r =>
    { r with conditions := r.conditions.modify condIdx set }

def EditForm.setRules (form : EditForm) (rules : List TargetingRule) :
    EditForm := { form with rules := rules }

def EditForm.apply (type : FlagType) (form : EditForm) : FormEdit → EditForm
  | .description v => { form with description := v }
  | .defaultValue v => { form with defaultValue := v }
  | .disabled v => { form with disabled := v }
  | .deliveryMethod v => { form with deliveryMethod := v }
  | .envVarName v => { form with envVarName := v }
  | .selectorLabels v => { form with selectorLabels := v }
  | .configMapName v => { form with configMapName := v }
  | .configMapKey v => { form with configMapKey := v }
  | .addRule => form.setRules (form.rules ++ [newRule type form.rules.length])
  | .removeRule index => form.setRules (form.rules.eraseIdx index)
  | .ruleName index v =>
      form.setRules (updateRule form.rules index fun r => { r with name := v })
  | .ruleValue index v =>
      form.setRules (updateRule form.rules index fun r => { r with value := v })
  | .addCondition ruleIdx =>
      form.setRules (updateRule form.rules ruleIdx fun r =>
        { r with conditions := r.conditions ++ [newCondition] })
  | .removeCondition ruleIdx condIdx =>
      form.setRules (updateRule form.rules ruleIdx fun r =>
        { r with conditions := r.conditions.eraseIdx condIdx })
  | .attribute ruleIdx condIdx v =>
      form.setRules (updateCondition form.rules ruleIdx condIdx fun c =>
        { c with attr := v })
  | .operator ruleIdx condIdx v =>
      form.setRules (updateCondition form.rules ruleIdx condIdx fun c =>
        { c with operator := v })
  | .values ruleIdx condIdx text =>
      form.setRules (updateCondition form.rules ruleIdx condIdx fun c =>
        { c with values := split text ',' })

/-- The form after some edits. -/
def EditForm.edited (order : GoMap String → List String) (flag : FlagResponse)
    (edits : List FormEdit) : EditForm :=
  edits.foldl (EditForm.apply flag.type) (EditForm.open order flag)

end Vexil.Web
