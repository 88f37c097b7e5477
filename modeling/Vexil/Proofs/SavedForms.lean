import Vexil.Proofs.SelectorText
import Vexil.Proofs.Toggles

/-!
# What saving a form does

The edit form shows less of a flag than there is, and what it sends replaces
whole parts. An empty field is left out of the request, and a field that is left
out stays as it was. So a save changes what the form never showed, and does not
change what was cleared in it.

Both halves start from one equation (`Saves.stored`): the spec that is stored by
a save, as a function of the form and of the spec before.
-/

namespace Vexil.Web

open Vexil.Lib Vexil.Kube Vexil.Server

/-! ## Saving -/

section
variable [Bcrypt] [ClientGo]

/-- The form is saved: its request is served, with nothing in between, and
answered with 200. -/
def Saves (form : EditForm) (flag : FlagResponse) (client : Endpoint)
    (key : ObjectKey) (s s' : ServerState) : Prop :=
  ∃ e : FlagEdit, e.kind = .update ∧ e.key = key ∧
    e.request.body.updates = some (form.updates flag) ∧
    EditsFlag e client s s'

/-- The spec that a save stores. -/
def savedSpec (form : EditForm) (flagName : String) (spec : FeatureFlagSpec) :
    FeatureFlagSpec :=
  { spec with
    description := Js.orElse form.description spec.description
    defaultValue := form.defaultValue
    disabled := form.disabled
    delivery := ((form.delivery flagName).or spec.delivery).map
      DeliverySpec.stored
    rules := if form.rules = [] then spec.rules else form.rules
    lifecycle :=
      if spec.lifecycle = .unset then .active else spec.lifecycle }

theorem Saves.stored {form : EditForm} {flag : FlagResponse}
    {client : Endpoint} {key : ObjectKey} {s s' : ServerState}
    {spec : FeatureFlagSpec} (h : Saves form flag client key s s')
    (hspec : specAt s client key = some spec) :
    specAt s' client key = some (savedSpec form flag.name spec) := by
  obtain ⟨e, hkind, rfl, hbody, h⟩ := h
  obtain ⟨stored, hstored, hafter⟩ := h.spec
  have hspec' : stored.spec = spec := by
    rw [specAt, hstored] at hspec
    exact Option.some.inj hspec
  rw [hafter, hspec', FlagEdit.change, hkind, hbody]
  simp only [Option.getD_some, EditForm.updates, FeatureFlagSpec.stored,
    savedSpec, Js.orUndefined, Js.orElse]
  congr 2
  · split
    · rfl
    · rfl
  · split
    · rfl
    · rfl

end

/-! ## The form that was not edited -/

/-- No sidecar has the explicit port 0, which a client cannot send. -/
def PortSet (d : DeliverySpec) : Prop := ∀ sidecar ∈ d.sidecar, sidecar.port ≠ 0

def labelsIn (selector : Option LabelSelector) : GoMap String :=
  (selector.map LabelSelector.matchLabels).getD ∅

/-- A delivery that a form does not send, or shows and sends whole. -/
def Survives (d : DeliverySpec) : Prop :=
  match d.envVar with
  | some envVar =>
      if labelsIn envVar.selector = ∅ ∧
          labelsIn (d.configMap.bind ConfigMapDelivery.selector) = ∅ then
        PortSet d
      else d.configMap = none ∧ d.sidecar = none ∧
        labelsOnly envVar.selector = true ∧ Clean (labelsIn envVar.selector)
  | none =>
      match d.configMap with
      | some configMap =>
          if configMap.configMapName = "" then PortSet d
          else d.sidecar = none ∧ configMap.key ≠ "" ∧
            Clean (labelsIn configMap.selector)
      | none => PortSet d

theorem noExpressions_of_labelsOnly {selector : Option LabelSelector}
    (h : labelsOnly selector = true) : noExpressions selector = true := by
  cases selector with
  | none => rfl
  | some _ => exact h

/-- Of what the schema admits only a port can be changed on its way back. -/
theorem stored_eq_self_iff_portSet {d : DeliverySpec}
    (hadmitted : d.admitted = true) : d.stored = d ↔ PortSet d := by
  rw [d.stored_eq_self_iff]
  obtain ⟨envVar, configMap, sidecar⟩ := d
  simp only [DeliverySpec.admitted, Bool.and_eq_true] at hadmitted
  obtain ⟨⟨_, hconfigMap⟩, hsidecar⟩ := hadmitted
  have hpruned : (configMap.all fun c => noExpressions c.selector) = true := by
    cases configMap with
    | none => rfl
    | some c => exact noExpressions_of_labelsOnly hconfigMap
  simp only [DeliverySpec.sendable, hpruned, Bool.true_and, PortSet]
  cases sidecar with
  | none => simp
  | some sidecar =>
      have hkept : noExpressions sidecar.selector = true :=
        noExpressions_of_labelsOnly hsidecar
      simp [hkept]

/-- The text of the labels field when the form opens. -/
def openText (order : GoMap String → List String)
    (first second : GoMap String) : String :=
  labelsText order (if first = ∅ then second else first)

theorem matchLabelsOf_eq (selector : Option LabelSelector) :
    matchLabelsOf selector =
      if labelsIn selector = ∅ then none else some (labelsIn selector) := by
  cases selector with
  | none => exact (if_pos rfl).symm
  | some selector =>
      rw [matchLabelsOf, labelsIn, Option.map_some, Option.filter_some,
        Option.getD_some]
      by_cases h : selector.matchLabels = ∅
      · simp [h]
      · simp [h]

section
variable {order : GoMap String → List String}
variable (horder : ∀ m : GoMap String, m.Ranges (order m))
include horder

theorem openText_eq_empty_iff (first second : GoMap String) :
    openText order first second = "" ↔ first = ∅ ∧ second = ∅ := by
  rw [openText, labelsText_eq_empty_iff (horder _)]
  split
  · next h => simp [h]
  · next h => simp [h]

theorem open_selectorLabels (flag : FlagResponse) :
    (EditForm.open order flag).selectorLabels =
      openText order
        (labelsIn ((flag.delivery.bind DeliverySpec.envVar).bind
          EnvVarDelivery.selector))
        (labelsIn ((flag.delivery.bind DeliverySpec.configMap).bind
          ConfigMapDelivery.selector)) := by
  have hnone : labelsText order ∅ = "" :=
    (labelsText_eq_empty_iff (horder ∅)).mpr rfl
  simp only [EditForm.open, matchLabelsOf_eq, openText]
  split
  · next labels hlabels =>
      split at hlabels
      · cases hlabels
      · next hne =>
          cases hlabels
          rw [if_neg hne]
  · next hfirst =>
      split at hfirst
      · next hempty =>
          rw [if_pos hempty]
          split
          · next labels hlabels =>
              split at hlabels
              · cases hlabels
              · cases hlabels
                rfl
          · next hsecond =>
              split at hsecond
              · next h => rw [h, hnone]
              · cases hsecond
      · cases hfirst

/-- What the form sends of a delivery by variables. -/
theorem open_envVar {flag : FlagResponse} {d : DeliverySpec}
    {envVar : EnvVarDelivery} (hd : flag.delivery = some d)
    (he : d.envVar = some envVar) :
    let first := labelsIn envVar.selector
    let second := labelsIn (d.configMap.bind ConfigMapDelivery.selector)
    (EditForm.open order flag).delivery flag.name =
      if first = ∅ ∧ second = ∅ then none
      else some { envVar := some ⟨envVar.name,
        selectorOf (labelsOf (openText order first second))⟩ } := by
  have htext := open_selectorLabels horder flag
  have hmethod : (EditForm.open order flag).deliveryMethod = .envVar := by
    simp [EditForm.open, hd, he]
  have hname : (EditForm.open order flag).envVarName = envVar.name := by
    simp [EditForm.open, hd, he]
  simp only [hd, he, Option.bind_some] at htext
  simp only [DeliveryForm.delivery, hmethod, hname, htext,
    openText_eq_empty_iff horder]

/-- What it sends of a delivery by a ConfigMap. -/
theorem open_configMap {flag : FlagResponse} {d : DeliverySpec}
    {configMap : ConfigMapDelivery} (hd : flag.delivery = some d)
    (he : d.envVar = none) (hc : d.configMap = some configMap) :
    (EditForm.open order flag).delivery flag.name =
      if configMap.configMapName = "" then none
      else some { configMap := some ⟨configMap.configMapName,
        Js.orElse configMap.key flag.name,
        selectorOf (labelsOf
          (labelsText order (labelsIn configMap.selector)))⟩ } := by
  have htext := open_selectorLabels horder flag
  have hmethod : (EditForm.open order flag).deliveryMethod = .configMap := by
    simp [EditForm.open, hd, he, hc]
  have hname : (EditForm.open order flag).configMapName =
      configMap.configMapName := by
    simp [EditForm.open, hd, hc]
  have hkey : (EditForm.open order flag).configMapKey = configMap.key := by
    simp [EditForm.open, hd, hc]
  simp only [hd, he, hc, Option.bind_some, Option.bind_none] at htext
  have hfirst : openText order (labelsIn none) (labelsIn configMap.selector) =
      labelsText order (labelsIn configMap.selector) := rfl
  rw [hfirst] at htext
  simp only [DeliveryForm.delivery, hmethod, hname, hkey, htext]
  congr 6
  split
  · next h => exact (labelsOf_empty (horder _) h).symm
  · rfl

/-- Of any other delivery it sends nothing. -/
theorem open_other {flag : FlagResponse} {d : DeliverySpec}
    (hd : flag.delivery = some d) (he : d.envVar = none)
    (hc : d.configMap = none) :
    (EditForm.open order flag).delivery flag.name = none := by
  have htext : (EditForm.open order flag).selectorLabels = "" := by
    rw [open_selectorLabels horder flag, openText_eq_empty_iff horder]
    simp [hd, he, hc, labelsIn]
  have hmethod : (EditForm.open order flag).deliveryMethod =
      if d.sidecar.isSome then .sidecar else .none := by
    simp [EditForm.open, hd, he, hc]
  by_cases hs : d.sidecar.isSome = true
  · rw [if_pos hs] at hmethod
    simp only [DeliveryForm.delivery, hmethod, htext, if_true]
  · rw [if_neg hs] at hmethod
    simp only [DeliveryForm.delivery, hmethod]

omit horder in
theorem selector_eq_iff {selector : Option LabelSelector}
    (hsome : selector.isSome = true) (labels : GoMap String) :
    selectorOf labels = selector ↔
      labels = labelsIn selector ∧ labelsOnly selector = true := by
  obtain ⟨⟨matchLabels, matchExpressions⟩, rfl⟩ :=
    Option.isSome_iff_exists.mp hsome
  simp [selectorOf, labelsIn, labelsOnly, eq_comm]

/-- The labels that come back are those that were there. -/
theorem clean_iff (labels : GoMap String) :
    labelsOf (labelsText order labels) = labels ↔ Clean labels :=
  labelsOf_labelsText_iff (horder labels)

theorem shown_envVar_iff {envVar : EnvVarDelivery}
    (hsome : envVar.selector.isSome = true) :
    ⟨envVar.name, selectorOf (labelsOf
        (labelsText order (labelsIn envVar.selector)))⟩ = envVar ↔
      labelsOnly envVar.selector = true ∧ Clean (labelsIn envVar.selector) := by
  obtain ⟨name, selector⟩ := envVar
  rw [EnvVarDelivery.mk.injEq, selector_eq_iff hsome, clean_iff horder]
  simp only [true_and]
  exact and_comm

theorem shown_configMap_iff {configMap : ConfigMapDelivery} {flagName : String}
    (honly : labelsOnly configMap.selector = true) (hname : flagName ≠ "") :
    ⟨configMap.configMapName, Js.orElse configMap.key flagName,
        selectorOf (labelsOf
          (labelsText order (labelsIn configMap.selector)))⟩ = configMap ↔
      configMap.key ≠ "" ∧ Clean (labelsIn configMap.selector) := by
  obtain ⟨configMapName, key, selector⟩ := configMap
  have hsome : selector.isSome = true := by
    cases selector with
    | none => cases honly
    | some _ => rfl
  have hkey : Js.orElse key flagName = key ↔ key ≠ "" := by
    unfold Js.orElse
    split
    · next h => simp [h, hname]
    · next h => simp [h]
  rw [ConfigMapDelivery.mk.injEq, selector_eq_iff hsome, clean_iff horder,
    hkey]
  simp only [true_and]
  rw [and_iff_left honly]

omit horder in
/-- Of labels alone nothing is pruned. -/
theorem stored_labels (configMapName key : String) (labels : GoMap String) :
    ConfigMapDelivery.stored ⟨configMapName, key, selectorOf labels⟩ =
      ⟨configMapName, key, selectorOf labels⟩ := rfl

omit horder in
/-- A delivery that is not sent is written back as it was read. -/
theorem unsent_iff {d : DeliverySpec} (hadmitted : d.admitted = true) :
    ((none : Option DeliverySpec).or (some d)).map DeliverySpec.stored =
      some d ↔ PortSet d := by
  rw [Option.none_or, Option.map_some, Option.some.injEq]
  exact stored_eq_self_iff_portSet hadmitted

/-- The delivery that is stored when the form is saved as it opened. -/
theorem survives_iff {flag : FlagResponse} {d : DeliverySpec}
    (hd : flag.delivery = some d) (hname : flag.name ≠ "")
    (hadmitted : d.admitted = true) :
    (((EditForm.open order flag).delivery flag.name).or (some d)).map
        DeliverySpec.stored = some d ↔ Survives d := by
  have hparts := hadmitted
  simp only [DeliverySpec.admitted, Bool.and_eq_true] at hparts
  obtain ⟨⟨henvVar, hconfigMap⟩, _⟩ := hparts
  obtain ⟨_ | envVar, configMap, sidecar⟩ := d
  · cases configMap with
    | none =>
        rw [open_other horder hd rfl rfl]
        exact unsent_iff hadmitted
    | some configMap =>
        rw [open_configMap horder hd rfl rfl]
        unfold Survives
        dsimp only
        split
        · exact unsent_iff hadmitted
        · simp only [Option.some_or, Option.map_some, DeliverySpec.stored,
            stored_labels, Option.map_none, Option.some.injEq,
            DeliverySpec.mk.injEq, true_and]
          rw [shown_configMap_iff horder hconfigMap hname]
          exact ⟨fun h => ⟨h.2.symm, h.1⟩, fun h => ⟨h.2, h.1.symm⟩⟩
  · rw [open_envVar horder hd rfl]
    unfold Survives
    dsimp only
    split
    · exact unsent_iff hadmitted
    · next hne =>
        simp only [Option.some_or, Option.map_some, DeliverySpec.stored,
          Option.map_none, Option.some.injEq, DeliverySpec.mk.injEq]
        cases configMap with
        | some configMap => exact iff_of_false (by simp) (by simp)
        | none =>
            have hfirst : labelsIn envVar.selector ≠ ∅ :=
              fun h => hne ⟨h, rfl⟩
            rw [openText, if_neg hfirst, shown_envVar_iff horder henvVar]
            exact ⟨fun h => ⟨rfl, h.2.2.symm, h.1⟩,
              fun h => ⟨h.2.2, rfl, h.2.1.symm⟩⟩

end

theorem spec_eq_iff (spec : FeatureFlagSpec) (delivery : Option DeliverySpec) :
    { spec with delivery := delivery } = spec ↔ delivery = spec.delivery := by
  obtain ⟨⟩ := spec
  simp

/-- Apart from the delivery nothing is changed by saving a form as it opened. -/
theorem savedSpec_open {order : GoMap String → List String}
    {flag : FeatureFlag} {clusterID : String}
    (hadmitted : flag.spec.admitted = true) :
    savedSpec (EditForm.open order (flagToResponse flag clusterID))
        flag.metadata.name flag.spec = flag.spec ↔
      (((EditForm.open order (flagToResponse flag clusterID)).delivery
          flag.metadata.name).or flag.spec.delivery).map
        DeliverySpec.stored = flag.spec.delivery := by
  have hlifecycle : flag.spec.lifecycle ≠ .unset := by
    simp only [FeatureFlagSpec.admitted, Bool.and_eq_true] at hadmitted
    exact of_decide_eq_true hadmitted.1.1.1.2
  rw [← spec_eq_iff]
  refine iff_of_eq (congrArg (· = flag.spec) ?_)
  rw [savedSpec, if_neg hlifecycle]
  congr 1
  · exact ite_self _
  · split
    · rfl
    · rfl

/-- Saving a form as it opened leaves the stored spec as it was exactly if its
delivery survives. -/
theorem unedited_save_iff [Bcrypt] [ClientGo]
    {order : GoMap String → List String}
    (horder : ∀ m : GoMap String, m.Ranges (order m)) {client : Endpoint}
    {key : ObjectKey} {clusterID : String} {s s' : ServerState}
    {flag : FeatureFlag} (hflag : (s.kube client).flags.get? key = some flag)
    (hname : key.name ≠ "") (hadmitted : flag.spec.admitted = true)
    (h : Saves (EditForm.open order (flagToResponse flag clusterID))
      (flagToResponse flag clusterID) client key s s') :
    specAt s' client key = some flag.spec ↔
      ∀ d ∈ flag.spec.delivery, Survives d := by
  have hspec : specAt s client key = some flag.spec := by
    rw [specAt, hflag]
    rfl
  have hkey : flag.metadata.name = key.name :=
    congrArg ObjectKey.name (VTable.key_of_get? hflag)
  rw [h.stored hspec, Option.some.injEq]
  refine (savedSpec_open hadmitted).trans ?_
  have hdelivery : flag.spec.delivery.all DeliverySpec.admitted = true := by
    simp only [FeatureFlagSpec.admitted, Bool.and_eq_true] at hadmitted
    exact hadmitted.1.2
  cases hd : flag.spec.delivery with
  | none =>
      refine iff_of_true ?_ (fun _ hmem => by cases hmem)
      simp [EditForm.open, flagToResponse, hd, DeliveryForm.delivery]
  | some d =>
      rw [hd] at hdelivery
      rw [← hkey] at hname
      exact (survives_iff horder hd hname hdelivery).trans (by simp)

/-! ## The form that was edited -/

/-- The fields that a delivery needs are filled. -/
def Filled (form : EditForm) : Prop :=
  (form.deliveryMethod = .envVar → form.selectorLabels ≠ "") ∧
    (form.deliveryMethod = .configMap → form.configMapName ≠ "") ∧
    (form.deliveryMethod = .sidecar → form.selectorLabels ≠ "")

/-- No method of delivery. -/
def NoDelivery (delivery : Option DeliverySpec) : Prop := ∀ d ∈ delivery, d = {}

instance (delivery : Option DeliverySpec) : Decidable (NoDelivery delivery) :=
  Option.decidableForallMem _

/-- The selector that a labels field says: the label of each token, and no
others. -/
def Says (text : String) (selector : Option LabelSelector) : Prop :=
  ∃ labels, selector = some { matchLabels := labels } ∧
    MeetsAll text labels ∧ ∀ k v, labels.lookup k = some v →
      '=' ∉ k.toList ∧ k ++ "=" ++ v ∈ tokens text

/-- The delivery is what stands in the fields of the form: one method, with the
fields that are under it. There is no field for a port. -/
def ShowsDelivery (form : EditForm) (delivery : Option DeliverySpec) : Prop :=
  match form.deliveryMethod with
  | .none => NoDelivery delivery
  | .envVar => ∃ selector, Says form.selectorLabels selector ∧
      delivery = some { envVar := some ⟨form.envVarName, selector⟩ }
  | .configMap => ∃ selector, Says form.selectorLabels selector ∧
      delivery = some
        { configMap := some ⟨form.configMapName, form.configMapKey, selector⟩ }
  | .sidecar => ∃ port selector, Says form.selectorLabels selector ∧
      delivery = some { sidecar := some ⟨port, selector⟩ }

/-- The spec is what the form shows. -/
structure Shows (form : EditForm) (spec : FeatureFlagSpec) : Prop where
  description : spec.description = form.description
  defaultValue : spec.defaultValue = form.defaultValue
  disabled : spec.disabled = form.disabled
  rules : spec.rules = form.rules
  delivery : ShowsDelivery form spec.delivery

/-- The fields of a delivery arrive as they are: nothing that was delivered is
switched off, each token of the labels is one label, and a ConfigMap has a
key. -/
def DeliveryArrives (form : EditForm) (flagName : String)
    (delivery : Option DeliverySpec) : Prop :=
  match form.deliveryMethod with
  | .none => NoDelivery delivery
  | .envVar | .sidecar =>
      tokens form.selectorLabels = [] ∨ Spelled form.selectorLabels
  | .configMap => (form.configMapKey = "" → flagName = "") ∧
      (tokens form.selectorLabels = [] ∨ Spelled form.selectorLabels)

/-- The labels of a text that spells its tokens are in it. -/
theorem token_of_lookup {text : String} (h : Spelled text) {k v : String}
    (hv : (labelsOf text).lookup k = some v) :
    '=' ∉ k.toList ∧ k ++ "=" ++ v ∈ tokens text := by
  obtain ⟨p, hcounts, hkey, hp⟩ := lookup_labelsOf_iff.mp hv
  have htoken := hcounts.mem_tokens hp
  obtain ⟨k', v', rfl, hk', hv'⟩ := hcounts.lookup (h.2 p htoken).1
  rw [pieceKey_assignment hk'] at hkey
  subst hkey
  rw [hv] at hv'
  cases hv'
  exact ⟨hk', htoken⟩

/-- What is read of a text is what it says exactly if each token is a label. -/
theorem says_labelsOf_iff (text : String) :
    Says text (selectorOf (labelsOf text)) ↔
      tokens text = [] ∨ Spelled text := by
  constructor
  · rintro ⟨labels, hlabels, hmeets, _⟩
    obtain rfl : labelsOf text = labels := by
      simpa [selectorOf] using hlabels
    by_cases hnil : tokens text = []
    · exact .inl hnil
    · exact .inr (spelled_of_meets hnil hmeets)
  · rintro (hnil | hspelled)
    · refine ⟨_, rfl, fun token htoken => ?_, fun k v hv => ?_⟩
      · rw [hnil] at htoken
        cases htoken
      · rw [labelsOf_of_tokens hnil, Finmap.lookup_empty] at hv
        cases hv
    · refine ⟨_, rfl, fun token htoken => ?_,
        fun k v hv => token_of_lookup hspelled hv⟩
      obtain ⟨hone, hcounts⟩ := hspelled.2 token htoken
      exact hcounts.lookup hone

theorem noDelivery_stored (delivery : Option DeliverySpec) :
    NoDelivery (delivery.map DeliverySpec.stored) ↔ NoDelivery delivery := by
  cases delivery with
  | none => rfl
  | some d =>
      obtain ⟨envVar, configMap, sidecar⟩ := d
      simp [NoDelivery, DeliverySpec.stored]

theorem orElse_eq_self_iff (s t : String) :
    Js.orElse s t = s ↔ (s = "" → t = "") := by
  unfold Js.orElse
  split
  · next h => simp [h]
  · next h => simp [h]

/-- The delivery that a filled form stores is the one it shows exactly if its
fields arrive. -/
theorem showsDelivery_savedSpec_iff {form : EditForm} (hfilled : Filled form)
    (flagName : String) (spec : FeatureFlagSpec) :
    ShowsDelivery form (savedSpec form flagName spec).delivery ↔
      DeliveryArrives form flagName spec.delivery := by
  obtain ⟨henvVar, hconfigMap, hsidecar⟩ := hfilled
  rw [ShowsDelivery, DeliveryArrives, savedSpec, DeliveryForm.delivery]
  cases h : form.deliveryMethod with
  | none => exact noDelivery_stored spec.delivery
  | envVar =>
      rw [← says_labelsOf_iff]
      simp only [if_neg (henvVar h), Option.some_or, Option.map_some]
      constructor
      · rintro ⟨selector, hsays, hsame⟩
        cases hsame
        exact hsays
      · exact fun hsays => ⟨_, hsays, rfl⟩
  | configMap =>
      have hempty : labelsOf "" = ∅ := by decide +kernel
      have hlabels : (if form.selectorLabels = "" then ∅
            else labelsOf form.selectorLabels) =
          labelsOf form.selectorLabels := by
        split
        · next hnone => rw [hnone, hempty]
        · rfl
      rw [← says_labelsOf_iff, ← orElse_eq_self_iff]
      simp only [if_neg (hconfigMap h), hlabels, Option.some_or,
        Option.map_some]
      constructor
      · rintro ⟨selector, hsays, hsame⟩
        simp only [DeliverySpec.stored, Option.map_some, stored_labels,
          Option.some.injEq, DeliverySpec.mk.injEq,
          ConfigMapDelivery.mk.injEq] at hsame
        obtain ⟨_, ⟨_, hkey, rfl⟩, _⟩ := hsame
        exact ⟨hkey, hsays⟩
      · rintro ⟨hkey, hsays⟩
        refine ⟨_, hsays, ?_⟩
        simp only [DeliverySpec.stored, Option.map_some, stored_labels, hkey,
          Option.map_none]
  | sidecar =>
      rw [← says_labelsOf_iff]
      simp only [if_neg (hsidecar h), Option.some_or, Option.map_some]
      constructor
      · rintro ⟨port, selector, hsays, hsame⟩
        cases hsame
        exact hsays
      · exact fun hsays => ⟨_, _, hsays, rfl⟩

/-- What is stored is what the form shows, exactly if what the form has cleared
was empty before and its delivery arrives. -/
theorem shows_savedSpec_iff {form : EditForm} (hfilled : Filled form)
    (flagName : String) (spec : FeatureFlagSpec) :
    Shows form (savedSpec form flagName spec) ↔
      (form.description = "" → spec.description = "") ∧
      (form.rules = [] → spec.rules = []) ∧
      DeliveryArrives form flagName spec.delivery := by
  have hdescription := orElse_eq_self_iff form.description spec.description
  have hrules : (if form.rules = [] then spec.rules else form.rules) =
      form.rules ↔ (form.rules = [] → spec.rules = []) := by
    split
    · next h => simp [h]
    · next h => simp [h]
  rw [← hdescription, ← hrules,
    ← showsDelivery_savedSpec_iff hfilled flagName spec]
  constructor
  · intro h
    exact ⟨h.description, h.rules, h.delivery⟩
  · intro h
    exact ⟨h.1, rfl, rfl, h.2.1, h.2.2⟩

/-- A save stores what the form shows exactly if the flag had nothing that the
form has cleared and the delivery arrives. -/
theorem saved_form_iff [Bcrypt] [ClientGo]
    {order : GoMap String → List String} {client : Endpoint} {key : ObjectKey}
    {s s' : ServerState} {flag : FlagResponse} {edits : List FormEdit}
    {spec : FeatureFlagSpec} (hspec : specAt s client key = some spec)
    (hfilled : Filled (EditForm.edited order flag edits))
    (h : Saves (EditForm.edited order flag edits) flag client key s s') :
    let form := EditForm.edited order flag edits
    (∃ spec', specAt s' client key = some spec' ∧ Shows form spec') ↔
      (form.description = "" → spec.description = "") ∧
      (form.rules = [] → spec.rules = []) ∧
      DeliveryArrives form flag.name spec.delivery := by
  intro form
  rw [← shows_savedSpec_iff hfilled flag.name, h.stored hspec]
  simp only [Option.some.injEq, exists_eq_left']
  rfl

/-! A flag with one delivery, and with two, is opened and saved. -/

def webEnvVar : EnvVarDelivery where
  selector := some { matchLabels := GoMap.single "app" "web" }

def settingsMap : ConfigMapDelivery where
  configMapName := "settings"
  key := "dark-mode"
  selector := some {}

def deliveredFlag (delivery : DeliverySpec) : FeatureFlag :=
  { toggledFlag with spec.delivery := some delivery }

def deliveredServer (delivery : DeliverySpec) : ServerState :=
  { toggledServer with
    kube := fun _ => { flags := VTable.empty.write (deliveredFlag delivery) } }

/-- The flag as the console gets it. -/
def deliveredView (delivery : DeliverySpec) : FlagResponse :=
  flagToResponse (VTable.empty.stamp (deliveredFlag delivery)) "prod"

/-- The form after some edits, and the server after it is saved. -/
def editedForm (delivery : DeliverySpec) (edits : List FormEdit) : EditForm :=
  EditForm.edited GoMap.sortedKeys (deliveredView delivery) edits

def saveBody (delivery : DeliverySpec) (edits : List FormEdit) :
    RequestBody where
  updates := some
    ((editedForm delivery edits).updates (deliveredView delivery))

def saveEdit (delivery : DeliverySpec) (edits : List FormEdit) : FlagEdit :=
  darkEdit .update (saveBody delivery edits)

def savedServer (delivery : DeliverySpec) (edits : List FormEdit) :
    ServerState :=
  (editAlone (saveEdit delivery edits) (deliveredServer delivery)).2.2

theorem editedForm_saves (delivery : DeliverySpec) (edits : List FormEdit)
    (hok : (editAlone (saveEdit delivery edits)
      (deliveredServer delivery)).2.1.status = 200) :
    letI := plainBcrypt
    letI := anyHost
    Saves (editedForm delivery edits) (deliveredView delivery) "prod" darkKey
      (deliveredServer delivery) (savedServer delivery edits) :=
  letI := plainBcrypt
  letI := anyHost
  ⟨saveEdit delivery edits, rfl, rfl, rfl, editAlone_edits hok rfl⟩

theorem unedited_save_iff_sample :
    letI := plainBcrypt
    letI := anyHost
    specAt (savedServer { envVar := some webEnvVar } []) "prod" darkKey =
      some (deliveredFlag { envVar := some webEnvVar }).spec := by
  let := plainBcrypt
  let := anyHost
  have hclean : Clean (labelsIn webEnvVar.selector) := by
    intro k v hv
    rw [labelsIn, webEnvVar, Option.map_some, Option.getD_some,
      GoMap.lookup_single] at hv
    split at hv
    · next hk =>
        cases hv
        subst hk
        exact ⟨by decide, by decide, by decide, by decide⟩
    · cases hv
  have hstored : ((deliveredServer { envVar := some webEnvVar }).kube
      "prod").flags.get? darkKey = some (VTable.empty.stamp
        (deliveredFlag { envVar := some webEnvVar })) := rfl
  refine (unedited_save_iff GoMap.ranges_sortedKeys hstored (by decide)
    (by decide)
    (editedForm_saves { envVar := some webEnvVar } [] (by decide +kernel))).mpr
    ?_
  rintro _ ⟨⟩
  exact ⟨rfl, rfl, rfl, hclean⟩

/-- A second delivery is lost. -/
theorem second_delivery_lost :
    letI := plainBcrypt
    letI := anyHost
    let both : DeliverySpec :=
      { envVar := some webEnvVar, configMap := some settingsMap }
    (deliveredFlag both).spec.admitted = true ∧
      Saves (editedForm both []) (deliveredView both) "prod" darkKey
        (deliveredServer both) (savedServer both []) ∧
      (specAt (savedServer both []) "prod" darkKey).map (·.delivery) =
        some (some { envVar := some webEnvVar }) ∧
      specAt (savedServer both []) "prod" darkKey ≠
        some (deliveredFlag both).spec :=
  letI := plainBcrypt
  letI := anyHost
  ⟨by decide +kernel, editedForm_saves _ [] (by decide +kernel),
    by decide +kernel, by decide +kernel⟩

/-- The delivery is switched to a ConfigMap. -/
def toSettings : List FormEdit :=
  [.deliveryMethod .configMap, .configMapName "settings", .configMapKey "dark"]

theorem saved_form_iff_sample :
    letI := plainBcrypt
    letI := anyHost
    let form := editedForm { envVar := some webEnvVar } toSettings
    ∃ spec, specAt (savedServer { envVar := some webEnvVar } toSettings)
        "prod" darkKey = some spec ∧ Shows form spec := by
  let := plainBcrypt
  let := anyHost
  have hspec : specAt (deliveredServer { envVar := some webEnvVar }) "prod"
      darkKey = some (deliveredFlag { envVar := some webEnvVar }).spec := rfl
  have hsaves := editedForm_saves { envVar := some webEnvVar } toSettings
    (by decide +kernel)
  have hmethod : (EditForm.edited GoMap.sortedKeys
      (deliveredView { envVar := some webEnvVar }) toSettings).deliveryMethod =
        .configMap := by decide +kernel
  refine (saved_form_iff hspec
    ⟨by decide +kernel, by decide +kernel, by decide +kernel⟩ hsaves).mpr
    ⟨by decide +kernel, by decide +kernel, ?_⟩
  rw [DeliveryArrives, hmethod]
  exact ⟨by decide +kernel, .inr (by decide +kernel)⟩

/-- A flag whose delivery is switched off in the form is still delivered. -/
theorem delivery_not_cleared :
    letI := plainBcrypt
    letI := anyHost
    let edits := [FormEdit.deliveryMethod .none]
    let form := editedForm { envVar := some webEnvVar } edits
    let s' := savedServer { envVar := some webEnvVar } edits
    Filled form ∧ form.deliveryMethod = .none ∧
      Saves form (deliveredView { envVar := some webEnvVar }) "prod" darkKey
        (deliveredServer { envVar := some webEnvVar }) s' ∧
      (specAt s' "prod" darkKey).map (·.delivery) =
        some (some { envVar := some webEnvVar }) ∧
      ¬ ∃ spec, specAt s' "prod" darkKey = some spec ∧
        Shows form spec := by
  let := plainBcrypt
  let := anyHost
  have hmethod : (editedForm { envVar := some webEnvVar }
      [.deliveryMethod .none]).deliveryMethod = .none := by decide +kernel
  have hstored : (specAt (savedServer { envVar := some webEnvVar }
      [.deliveryMethod .none]) "prod" darkKey).map (·.delivery) =
        some (some { envVar := some webEnvVar }) := by decide +kernel
  refine ⟨⟨by decide +kernel, by decide +kernel, by decide +kernel⟩, hmethod,
    editedForm_saves _ _ (by decide +kernel), hstored, ?_⟩
  rintro ⟨spec, hspec, hshows⟩
  have hnone := hshows.delivery
  rw [ShowsDelivery, hmethod] at hnone
  rw [hspec, Option.map_some, Option.some.injEq] at hstored
  cases hnone _ hstored

end Vexil.Web
