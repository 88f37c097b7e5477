import Vexil.Operator.System
import Vexil.Web.Labels

/-!
# The selector a text becomes

What is typed into the labels field says which workloads to reach. On the way to
the operator it is read as an object, sent without what is undefined in it, and
checked as a selector. A piece that gives no label is gone without an error, and
the selector matches more than was asked for: if no piece is left, everything.

The text is read as it is written exactly if each of its tokens has one `=` and
is the last word on its key.
-/

namespace Vexil.Web

open Vexil.Lib Vexil.Kube Vexil.Server Vexil.Operator

/-! ## What a text asks for -/

/-- The pieces that are not empty. -/
def tokens (text : String) : List String := (pieces text).filter (· ≠ "")

/-- The labels have the value that a token gives its key. A token that gives it
none is a requirement that no labels meet. -/
def Meets (token : String) (labels : GoMap String) : Prop :=
  ∃ k v, token = k ++ "=" ++ v ∧ '=' ∉ k.toList ∧ labels.lookup k = some v

def MeetsAll (text : String) (labels : GoMap String) : Prop :=
  ∀ token ∈ tokens text, Meets token labels

/-- Each token is one label, and no piece after it changes that. -/
def Spelled (text : String) : Prop :=
  tokens text ≠ [] ∧ ∀ token ∈ tokens text,
    token.toList.count '=' = 1 ∧ Counts text token

instance (text : String) : Decidable (Spelled text) :=
  inferInstanceAs (Decidable (_ ∧ _))

theorem mem_tokens {text token : String} :
    token ∈ tokens text ↔ token ∈ pieces text ∧ token ≠ "" := by
  rw [tokens, List.mem_filter, decide_eq_true_iff]

/-- A piece with a value is a token. -/
theorem Counts.mem_tokens {text p v : String} (h : Counts text p)
    (hv : (split p '=')[1]? = some v) : p ∈ tokens text := by
  refine Web.mem_tokens.mpr ⟨h.mem, ?_⟩
  rintro rfl
  cases hv

theorem count_assignment {k v : String} (hk : '=' ∉ k.toList) :
    (k ++ "=" ++ v).toList.count '=' = 1 ↔ '=' ∉ v.toList := by
  rw [String.toList_append, String.toList_append, List.count_append,
    List.count_append, List.count_eq_zero.mpr hk, ← List.count_eq_zero]
  have hone : "=".toList.count '=' = 1 := rfl
  omega

/-- A token that is one label gives it to the labels of the text. -/
theorem Counts.lookup {text token : String} (h : Counts text token)
    (hone : token.toList.count '=' = 1) :
    ∃ k v, token = k ++ "=" ++ v ∧ '=' ∉ k.toList ∧
      (labelsOf text).lookup k = some v := by
  have hmem : '=' ∈ token.toList := List.count_pos_iff.mp (by omega)
  obtain ⟨k, v, rfl, hk⟩ := assignment_of_mem hmem
  have hv := (count_assignment hk).mp hone
  refine ⟨k, v, rfl, hk, lookup_labelsOf_iff.mpr
    ⟨_, h, pieceKey_assignment hk, ?_⟩⟩
  rw [split_assignment hk, split_of_not_mem hv]
  rfl

/-- The labels of a text meet its tokens only if the text spells them. -/
theorem spelled_of_meets {text : String} (hne : tokens text ≠ [])
    (h : MeetsAll text (labelsOf text)) : Spelled text := by
  refine ⟨hne, fun token htoken => ?_⟩
  obtain ⟨k, v, rfl, hk, hv⟩ := h token htoken
  obtain ⟨_, _, hvalue⟩ := separable_of_lookup hv
  refine ⟨(count_assignment hk).mpr hvalue.2, ?_⟩
  obtain ⟨p, hcounts, hkey, hp⟩ := lookup_labelsOf_iff.mp hv
  obtain ⟨k', v', rfl, hk', hv'⟩ := h p (hcounts.mem_tokens hp)
  rw [pieceKey_assignment hk'] at hkey
  subst hkey
  rw [hv] at hv'
  cases hv'
  exact hcounts

/-- Without tokens there are no labels. -/
theorem labelsOf_of_tokens {text : String} (h : tokens text = []) :
    labelsOf text = ∅ := by
  refine Finmap.ext_lookup fun k => ?_
  rw [Finmap.lookup_empty, Option.eq_none_iff_forall_not_mem]
  intro v hv
  obtain ⟨p, hcounts, _, hp⟩ := lookup_labelsOf_iff.mp hv
  have hmem := hcounts.mem_tokens hp
  rw [h] at hmem
  cases hmem

/-! ## What becomes of it -/

/-- What is sent of a delivery by variables with this text as its labels. -/
inductive Sent (text : String) : Option DeliverySpec → Prop
  | created (form : CreateForm) (hmethod : form.deliveryMethod = .envVar)
      (htext : form.selectorLabels = text) :
      Sent text form.request.delivery
  | edited (form : EditForm) (flag : FlagResponse)
      (hmethod : form.deliveryMethod = .envVar)
      (htext : form.selectorLabels = text) :
      Sent text (form.updates flag).delivery

theorem Sent.envVar {text : String} {delivery : Option DeliverySpec}
    (h : Sent text delivery) (htext : text ≠ "") :
    ∃ envVar : EnvVarDelivery, delivery = some { envVar := some envVar } ∧
      envVar.selector = selectorOf (labelsOf text) := by
  have hform : ∀ (form : DeliveryForm) (flagName : String),
      form.deliveryMethod = .envVar → form.selectorLabels = text →
      ∃ envVar : EnvVarDelivery,
        form.delivery flagName = some { envVar := some envVar } ∧
        envVar.selector = selectorOf (labelsOf text) := by
    intro form flagName hmethod hlabels
    simp only [DeliveryForm.delivery, hmethod, hlabels, if_neg htext]
    exact ⟨_, rfl, rfl⟩
  cases h with
  | created form hmethod hlabels =>
      exact hform form.toDeliveryForm form.name hmethod hlabels
  | edited form flag hmethod hlabels =>
      exact hform form.toDeliveryForm flag.name hmethod hlabels

section
variable [Apimachinery]

/-- How labels become a selector: each key and value has a syntax, and without
a wrong one the selector asks for all of them. -/
structure SelectorLaw (valid : String → String → Prop) : Prop where
  refuses : ∀ (labels : GoMap String) (k v : String),
    labels.lookup k = some v → ¬ valid k v →
    ∃ err, Apimachinery.labelSelectorAsSelector (selectorOf labels) = .error err
  selects : ∀ labels : GoMap String,
    (∀ k v, labels.lookup k = some v → valid k v) →
    ∃ selector,
      Apimachinery.labelSelectorAsSelector (selectorOf labels) = .ok selector ∧
      ∀ labels', selector labels' = true ↔
        ∀ k v, labels.lookup k = some v → labels'.lookup k = some v

/-- Whatever else runs, a reconcile of a flag with this delivery injects only
into Deployments with such labels. -/
def InjectsOnly (delivery : Option DeliverySpec)
    (P : GoMap String → Prop) : Prop :=
  ∀ (ι : Type) [DecidableEq ι] (nows : ι → Nat) (reqs : ι → ObjectKey)
    (s s' : Cluster) (ls : List (SystemLabel ι)) (i : ι),
    Interleaved (fun i => reconcile (nows i) (reqs i)) ls →
    Run SystemStep s ls s' →
    (∀ f, Label.own i ⟨.getFlag (reqs i), .ok f⟩ ∈ ls →
      f.spec.delivery = delivery) →
    ∀ d r, Label.own i ⟨.updateDeployment d, r⟩ ∈ ls → P d.metadata.labels

/-- The selector of a text does not match every workload, and what it matches
meets every token of the text, as does what is injected into. -/
def NeverWidens (text : String) : Prop :=
  ∀ delivery, Sent text delivery →
    ∃ envVar : EnvVarDelivery, delivery = some { envVar := some envVar } ∧
      (∀ selector, Apimachinery.labelSelectorAsSelector envVar.selector =
          .ok selector →
        (∃ labels, selector labels = false) ∧
        ∀ labels, selector labels = true → MeetsAll text labels) ∧
      InjectsOnly delivery (MeetsAll text)

/-- An injection is into a Deployment that the selector matched. -/
theorem injectsOnly {envVar : EnvVarDelivery} {P : GoMap String → Prop}
    (h : ∀ selector, Apimachinery.labelSelectorAsSelector envVar.selector =
      .ok selector → ∀ labels, selector labels = true → P labels) :
    InjectsOnly (some { envVar := some envVar }) P := by
  intro ι _ nows reqs s s' ls i hprogs hrun hread d r hmem
  obtain ⟨pre, post, rfl⟩ := List.append_of_mem hmem
  obtain ⟨m, _, hpre, _⟩ := hrun.at_event
  have hcall := hprogs.call_along (P := fun i => OperatorCall (nows i) (reqs i))
    (reconcile_along (nows i) (reqs i))
  obtain ⟨f, delivery, selector, ds, old, hf, hds, hold, hdel, hsel, rfl⟩ :=
    hcall
  have hdelivery := hread f (List.mem_append_left _ (mem_proj.mp hf))
  rw [hdelivery] at hdel
  cases hdel
  obtain ⟨_, _, hlabels⟩ := listDeployments_past hpre (mem_proj.mp hds) old hold
  rw [metadata_injected]
  exact h selector hsel _ hlabels

/-- Some label of the text has a key or a value that is not valid. -/
def Refused (valid : String → String → Prop) (text : String) : Prop :=
  ∃ p, Counts text p ∧ ∃ v, (split p '=')[1]? = some v ∧ ¬ valid (pieceKey p) v

variable {valid : String → String → Prop}

theorem SelectorLaw.error_of_refused (hlaw : SelectorLaw valid) {text : String}
    (h : Refused valid text) : ∃ err,
      Apimachinery.labelSelectorAsSelector (selectorOf (labelsOf text)) =
        .error err := by
  obtain ⟨p, hcounts, v, hv, hnot⟩ := h
  exact hlaw.refuses _ _ v (lookup_labelsOf_iff.mpr ⟨p, hcounts, rfl, hv⟩) hnot

theorem SelectorLaw.ok_of_not_refused (hlaw : SelectorLaw valid)
    {text : String} (h : ¬ Refused valid text) : ∃ selector,
      Apimachinery.labelSelectorAsSelector (selectorOf (labelsOf text)) =
        .ok selector ∧
      ∀ labels, selector labels = true ↔ ∀ k v,
        (labelsOf text).lookup k = some v → labels.lookup k = some v := by
  refine hlaw.selects _ fun k v hv => ?_
  obtain ⟨p, hcounts, rfl, hp⟩ := lookup_labelsOf_iff.mp hv
  exact not_not.mp fun hnot => h ⟨p, hcounts, v, hp, hnot⟩

/-- A text that spells its tokens gives a selector that asks for them. -/
theorem meetsAll_of_selector (hlaw : SelectorLaw valid) {text : String}
    (h : Refused valid text ∨ Spelled text) {selector : GoMap String → Bool}
    (hsel : Apimachinery.labelSelectorAsSelector
      (selectorOf (labelsOf text)) = .ok selector) {labels : GoMap String}
    (hlabels : selector labels = true) :
    tokens text ≠ [] ∧ MeetsAll text labels := by
  by_cases hrefused : Refused valid text
  · obtain ⟨err, herr⟩ := hlaw.error_of_refused hrefused
    rw [herr] at hsel
    cases hsel
  · obtain ⟨selector', hsel', hexact⟩ := hlaw.ok_of_not_refused hrefused
    rw [hsel'] at hsel
    cases hsel
    obtain ⟨hne, hspelled⟩ := h.resolve_left hrefused
    refine ⟨hne, fun token htoken => ?_⟩
    obtain ⟨hone, hcounts⟩ := hspelled token htoken
    obtain ⟨k, v, rfl, hk, hv⟩ := hcounts.lookup hone
    exact ⟨k, v, rfl, hk, (hexact labels).mp hlabels k v hv⟩

omit [Apimachinery] in
/-- No workload without labels meets a token. -/
theorem not_meetsAll_empty {text : String} (h : tokens text ≠ []) :
    ¬ MeetsAll text ∅ := by
  intro hall
  obtain ⟨token, htoken⟩ := List.exists_mem_of_ne_nil _ h
  obtain ⟨k, v, _, _, hv⟩ := hall token htoken
  rw [Finmap.lookup_empty] at hv
  cases hv

/-- A selector text reaches only what it asks for exactly if it is refused, or
each of its tokens has one `=` and is the last word on its key. -/
theorem never_widens_iff (hlaw : SelectorLaw valid) {text : String}
    (htext : Js.trim text ≠ "") :
    NeverWidens text ↔ Refused valid text ∨ Spelled text := by
  have hne : text ≠ "" := fun h => htext (by rw [h]; rfl)
  constructor
  · intro h
    by_cases hrefused : Refused valid text
    · exact .inl hrefused
    refine .inr ?_
    obtain ⟨selector, hsel, hexact⟩ := hlaw.ok_of_not_refused hrefused
    have hsent : Sent text _ :=
      .created { selectorLabels := text } rfl rfl
    obtain ⟨envVar, hdelivery, hselector⟩ := hsent.envVar hne
    obtain ⟨envVar', hdelivery', hnarrow, _⟩ := h _ hsent
    rw [hdelivery] at hdelivery'
    cases hdelivery'
    rw [hselector] at hnarrow
    obtain ⟨⟨labels, hnot⟩, hmeets⟩ := hnarrow selector hsel
    refine spelled_of_meets (fun hnil => ?_)
      (hmeets _ ((hexact _).mpr fun k v hv => hv))
    have hall := (hexact labels).mpr (by simp [labelsOf_of_tokens hnil])
    rw [hnot] at hall
    cases hall
  · intro h delivery hsent
    obtain ⟨envVar, rfl, hselector⟩ := hsent.envVar hne
    have hmeets : ∀ selector,
        Apimachinery.labelSelectorAsSelector envVar.selector = .ok selector →
        ∀ labels, selector labels = true →
          tokens text ≠ [] ∧ MeetsAll text labels := by
      intro selector hsel labels hlabels
      rw [hselector] at hsel
      exact meetsAll_of_selector hlaw h hsel hlabels
    refine ⟨envVar, rfl, fun selector hsel => ⟨⟨∅, ?_⟩, fun labels hlabels =>
      (hmeets selector hsel labels hlabels).2⟩,
      injectsOnly fun selector hsel labels hlabels =>
        (hmeets selector hsel labels hlabels).2⟩
    rw [Bool.eq_false_iff]
    intro hempty
    obtain ⟨hnil, hall⟩ := hmeets selector hsel ∅ hempty
    exact not_meetsAll_empty hnil hall

end

/-! A text with one label, and one with a key only. -/

theorem labelSelectors_law :
    letI := labelSelectors
    SelectorLaw fun _ _ => True := by
  let := labelSelectors
  refine ⟨fun _ _ _ _ hnot => absurd trivial hnot, fun labels _ =>
    ⟨_, rfl, fun labels' => ?_⟩⟩
  rw [List.all_nil, Bool.and_true, GoMap.all_eq_true]
  simp only [decide_eq_true_iff]

theorem never_widens_iff_sample :
    letI := labelSelectors
    NeverWidens "app=web" :=
  letI := labelSelectors
  (never_widens_iff labelSelectors_law (by decide)).mpr
    (.inr (by decide +kernel))

/-- The form with a key only, and a flag with what it sends. -/
def tierForm : CreateForm where
  name := "dark-mode"
  selectorLabels := "tier"

def tierCluster : Cluster where
  flags := VTable.empty.write { sampleFlag {} with
    spec.delivery := tierForm.request.delivery }
  deployments := VTable.empty.write (sampleDeployment "db" "db" [])

/-- The key is dropped, and a Deployment without it is injected into. -/
theorem lone_key_widens :
    letI := labelSelectors
    let run := (reconcile 7 ⟨"default", "dark-mode"⟩).exec KubeCall.serve
      tierCluster
    Js.trim "tier" ≠ "" ∧ ¬ NeverWidens "tier" ∧
      ∃ d ∈ run.2.2.deployments.get? ⟨"default", "db"⟩,
        HasEnv "FLAG_DARK_MODE" "true" d ∧
        d.metadata.labels.lookup "tier" = none := by
  let := labelSelectors
  refine ⟨by decide, fun h => ?_, by decide +kernel⟩
  have hsent : tierForm.request.delivery =
      some { envVar := some { selector := some {} } } := by decide +kernel
  obtain ⟨envVar, hdelivery, hnarrow, _⟩ := h _ (.created tierForm rfl rfl)
  rw [hsent] at hdelivery
  cases hdelivery
  obtain ⟨⟨labels, hnot⟩, _⟩ := hnarrow _ rfl
  cases hnot

end Vexil.Web
