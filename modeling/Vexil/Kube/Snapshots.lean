import Vexil.Kube.Cluster

/-!
# Snapshots

What a client read some time ago is a version the object once had. The cluster
keeps all of them, so along any run, by whatever clients, the versions of an
earlier state are versions of a later one, and a read anywhere in the run is a
version of its last state.
-/

namespace Vexil.Kube

open Vexil.Lib

/-- Every version that `s` ever held is one that `s'` ever held. -/
structure Remembers (s s' : Cluster) : Prop where
  flags : ∀ f ∈ s.flags.past, f ∈ s'.flags.past
  deployments : ∀ d ∈ s.deployments.past, d ∈ s'.deployments.past
  configMaps : ∀ cm ∈ s.configMaps.past, cm ∈ s'.configMaps.past

theorem Remembers.refl (s : Cluster) : Remembers s s :=
  ⟨fun _ h => h, fun _ h => h, fun _ h => h⟩

theorem Remembers.trans {s m s' : Cluster} (h₁ : Remembers s m)
    (h₂ : Remembers m s') : Remembers s s' :=
  ⟨fun f h => h₂.flags f (h₁.flags f h),
    fun d h => h₂.deployments d (h₁.deployments d h),
    fun cm h => h₂.configMaps cm (h₁.configMaps cm h)⟩

theorem Remembers.writeFlags (s : Cluster) (f : FeatureFlag) :
    Remembers s { s with flags := s.flags.write f } :=
  ⟨fun _ h => List.mem_cons_of_mem _ h, fun _ h => h, fun _ h => h⟩

theorem Remembers.writeDeployments (s : Cluster) (d : Deployment) :
    Remembers s { s with deployments := s.deployments.write d } :=
  ⟨fun _ h => h, fun _ h => List.mem_cons_of_mem _ h, fun _ h => h⟩

theorem Remembers.writeConfigMaps (s : Cluster) (cm : ConfigMap) :
    Remembers s { s with configMaps := s.configMaps.write cm } :=
  ⟨fun _ h => h, fun _ h => h, fun _ h => List.mem_cons_of_mem _ h⟩

theorem remembers_of_kubeStep {s s' : Cluster} {e : KubeEvent}
    (h : KubeStep s e s') : Remembers s s' := by
  obtain ⟨c, r⟩ := e
  cases r with
  | error err =>
      rw [h.of_error]
      exact .refl s
  | ok v =>
      cases c with
      | getFlag | listFlags | listDeployments | listStatefulSets
      | listDaemonSets | getConfigMap | listConfigMaps =>
          rw [h.of_read rfl]
          exact .refl s
      | createFlag f =>
          obtain ⟨_, rfl⟩ := kubeStep_createFlag h
          exact .writeFlags s _
      | updateFlag f =>
          obtain ⟨old, _, _, ⟨_, rfl⟩ | rfl⟩ := kubeStep_updateFlag h
          · exact .refl s'
          · exact .writeFlags s _
      | updateFlagStatus f =>
          obtain ⟨old, _, _, ⟨_, rfl⟩ | rfl⟩ := kubeStep_updateFlagStatus h
          · exact .refl s'
          · exact .writeFlags s _
      | deleteFlag key =>
          rw [kubeStep_deleteFlag h]
          exact ⟨fun _ h => h, fun _ h => h, fun _ h => h⟩
      | updateDeployment d =>
          obtain ⟨old, _, _, ⟨_, rfl⟩ | rfl⟩ := kubeStep_updateDeployment h
          · exact .refl s'
          · exact .writeDeployments s _
      | createConfigMap cm =>
          obtain ⟨_, rfl⟩ := kubeStep_createConfigMap h
          exact .writeConfigMaps s _
      | updateConfigMap cm =>
          obtain ⟨old, _, _, ⟨_, rfl⟩ | rfl⟩ := kubeStep_updateConfigMap h
          · exact .refl s'
          · exact .writeConfigMaps s _

theorem remembers_apply (w : OtherWrite) (s : Cluster) :
    Remembers s (w.apply s) := by
  have hflag : ∀ old new, Remembers s (s.writeFlag old new) := by
    intro old new
    unfold Cluster.writeFlag
    split
    · exact .refl s
    · exact .writeFlags s new
  cases w with
  | putFlag f =>
      simp only [OtherWrite.apply]
      split
      · exact .writeFlags s _
      · exact hflag _ _
  | putFlagStatus f =>
      simp only [OtherWrite.apply]
      split
      · exact .refl s
      · exact hflag _ _
  | putDeployment d => exact .writeDeployments s d
  | putConfigMap cm => exact .writeConfigMaps s cm
  | deleteFlag | deleteDeployment | deleteConfigMap | tick =>
      exact ⟨fun _ h => h, fun _ h => h, fun _ h => h⟩

section
variable {ι : Type}

abbrev SystemLabel (ι : Type) := Label ι KubeCall KubeCall.Reply OtherWrite

theorem remembers_of_step {s s' : Cluster} {l : SystemLabel ι}
    (h : SystemStep s l s') : Remembers s s' := by
  cases l with
  | own i e =>
      rcases StaleStep.cases h with ⟨_, rfl⟩ | h
      · exact .refl s'
      · exact remembers_of_kubeStep h
  | other w =>
      have hs : s' = w.apply s := h
      rw [hs]
      exact remembers_apply w s

theorem remembers_of_run {s s' : Cluster} {ls : List (SystemLabel ι)}
    (h : Run SystemStep s ls s') : Remembers s s' := by
  induction h with
  | nil => exact .refl _
  | cons hstep _ ih => exact (remembers_of_step hstep).trans ih

theorem getFlag_past {s s' : Cluster} {ls : List (SystemLabel ι)} {i : ι}
    {key : ObjectKey} {f : FeatureFlag} (hrun : Run SystemStep s ls s')
    (he : Label.own i ⟨.getFlag key, .ok f⟩ ∈ ls) :
    f ∈ s'.flags.past ∧ f.metadata.objectKey = key := by
  obtain ⟨pre, post, rfl⟩ := List.append_of_mem he
  obtain ⟨m, m', _, hstep, hpost⟩ := hrun.at_event
  obtain ⟨rfl, hread⟩ := hstep
  obtain ⟨hpast, hkey⟩ := hread f rfl
  exact ⟨(remembers_of_run hpost).flags f hpast, hkey⟩

theorem listDeployments_past {s s' : Cluster} {ls : List (SystemLabel ι)}
    {i : ι} {ns : String} {selector : GoMap String → Bool}
    {ds : List Deployment} (hrun : Run SystemStep s ls s')
    (he : Label.own i ⟨.listDeployments ns selector, .ok ds⟩ ∈ ls) :
    ∀ d ∈ ds, d ∈ s'.deployments.past ∧ d.metadata.ns = ns ∧
      selector d.metadata.labels = true := by
  obtain ⟨pre, post, rfl⟩ := List.append_of_mem he
  obtain ⟨m, m', _, hstep, hpost⟩ := hrun.at_event
  obtain ⟨rfl, hread⟩ := hstep
  intro d hd
  obtain ⟨hpast, hns, hlabels⟩ := hread ds rfl d hd
  exact ⟨(remembers_of_run hpost).deployments d hpast, hns, hlabels⟩

theorem getConfigMap_past {s s' : Cluster} {ls : List (SystemLabel ι)} {i : ι}
    {key : ObjectKey} {cm : ConfigMap} (hrun : Run SystemStep s ls s')
    (he : Label.own i ⟨.getConfigMap key, .ok cm⟩ ∈ ls) :
    cm ∈ s'.configMaps.past ∧ cm.metadata.objectKey = key := by
  obtain ⟨pre, post, rfl⟩ := List.append_of_mem he
  obtain ⟨m, m', _, hstep, hpost⟩ := hrun.at_event
  obtain ⟨rfl, hread⟩ := hstep
  obtain ⟨hpast, hkey⟩ := hread cm rfl
  exact ⟨(remembers_of_run hpost).configMaps cm hpast, hkey⟩

end

end Vexil.Kube
