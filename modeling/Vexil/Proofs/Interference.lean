import Vexil.Lib.Confluence
import Vexil.Operator.Recorded
import Vexil.Proofs.Retry

/-!
# Flags do not interfere

Flags share Deployments, and they share ConfigMaps, one of which exists only
because some flag came first. Reconciles of several flags therefore do not
commute: the order shows in the env lists, where each flag appends its variable,
in the flags hash, and in whether an empty value has a key.

What a container or a reader of a ConfigMap can see does not depend on it. The
proof looks at a run through one observation at a time: the entries of one name
in one container, the value under one key of one ConfigMap, the status of one
flag. A reconcile acts on each observation by itself, two flags that are told
apart never act on the same one, and acting twice is acting once. So the
observation after a run depends on the set of flags in it (`foldl_congr_mem`).
-/

namespace Vexil.Operator

open Vexil.Lib Vexil.Kube

/-! ## The entries of one name -/

/-- The entries of a name, in order. -/
def entries (name : String) (env : List EnvVar) : List EnvVar :=
  env.filter fun e => e.name = name

/-- What an injection does to the entries of its own name. -/
def setFirst (name value : String) : List EnvVar → List EnvVar
  | [] => [{ name := name, value := value }]
  | e :: es => { e with value := value } :: es

theorem setFirst_setFirst (name value : String) (es : List EnvVar) :
    setFirst name value (setFirst name value es) = setFirst name value es := by
  cases es with
  | nil => rfl
  | cons e es => rfl

theorem entries_eq_nil {name : String} {env : List EnvVar}
    (h : ∀ e ∈ env, e.name ≠ name) : entries name env = [] := by
  rw [entries, List.filter_eq_nil_iff]
  simpa using h

theorem entries_append (name : String) (env env' : List EnvVar) :
    entries name (env ++ env') = entries name env ++ entries name env' :=
  List.filter_append ..

theorem entries_cons_self {name : String} {e : EnvVar} (he : e.name = name)
    (env : List EnvVar) : entries name (e :: env) = e :: entries name env :=
  List.filter_cons_of_pos (by simpa using he)

theorem entries_cons_ne {name : String} {e : EnvVar} (he : e.name ≠ name)
    (env : List EnvVar) : entries name (e :: env) = entries name env :=
  List.filter_cons_of_neg (by simpa using he)

theorem entries_injectContainer_self (envName value : String) (c : Container) :
    entries envName (injectContainer envName value c).1.env =
      setFirst envName value (entries envName c.env) := by
  unfold injectContainer
  split
  · next env updated hset =>
      obtain ⟨pre, e, post, hes, hpre, he, rfl, _⟩ := setEnv_eq_some hset
      dsimp only
      rw [hes, entries_append, entries_append, entries_eq_nil hpre,
        entries_cons_self he,
        entries_cons_self (e := { e with value := value }) he]
      rfl
  · next hset =>
      have hnone := entries_eq_nil (setEnv_eq_none.mp hset)
      dsimp only
      rw [entries_append, hnone, List.nil_append]
      exact entries_cons_self rfl []

theorem entries_injectContainer_ne {envName name : String}
    (hne : envName ≠ name) (value : String) (c : Container) :
    entries name (injectContainer envName value c).1.env =
      entries name c.env := by
  unfold injectContainer
  split
  · next env updated hset =>
      obtain ⟨pre, e, post, hes, _, he, rfl, _⟩ := setEnv_eq_some hset
      have hname : e.name ≠ name := he ▸ hne
      dsimp only
      rw [hes, entries_append, entries_append, entries_cons_ne hname,
        entries_cons_ne (e := { e with value := value }) hname]
  · dsimp only
    rw [entries_append, entries_cons_ne hne]
    exact List.append_nil _

/-! ## Clusters that are the same up to order -/

/-- Nothing of a container differs but how entries of different names are
interleaved. -/
structure SameContainer (c c' : Container) : Prop where
  name : c'.name = c.name
  image : c'.image = c.image
  envFrom : c'.envFrom = c.envFrom
  entries : ∀ n, entries n c'.env = entries n c.env

/-- Nothing of a Deployment differs but that, and the flags hash. -/
structure SameDeployment (d d' : Deployment) : Prop where
  metadata : d'.metadata = d.metadata
  replicas : d'.replicas = d.replicas
  annotations : ∀ k, k ≠ flagsHash →
    (orEmpty d'.template.annotations).lookup k =
      (orEmpty d.template.annotations).lookup k
  containers : List.Forall₂ SameContainer d.template.containers
    d'.template.containers

/-- `Data[key]`, where a ConfigMap that is not there has no data. -/
def dataIndex (key : String) (cm : Option ConfigMap) : String :=
  (orEmpty (cm.bind ConfigMap.data)).index key

/-- The status of a flag, without the time it was written at. -/
def statusAt (s : Cluster) (k : ObjectKey) : Option FeatureFlagStatus :=
  (s.flags.get? k).map fun f => { f.status with lastUpdated := none }

structure SameUpToOrder (s s' : Cluster) : Prop where
  deployments : ∀ k, Option.Rel SameDeployment (deployAt s k) (deployAt s' k)
  configMaps : ∀ k, (configMapAt s' k).map ConfigMap.metadata =
    (configMapAt s k).map ConfigMap.metadata
  data : ∀ k key, dataIndex key (configMapAt s' k) =
    dataIndex key (configMapAt s k)
  flags : ∀ k, flagAt s' k = flagAt s k
  statuses : ∀ k, statusAt s' k = statusAt s k
  others : KeepsOthers s s'

/-! ## Flags that are told apart -/

/-- The variable a flag's envVar delivery declares. -/
def declaredVar (f : FeatureFlag) : Option String :=
  (f.spec.delivery.bind DeliverySpec.envVar).map (envVarName f)

/-- The ConfigMap and the key a flag's configMap delivery declares. -/
def declaredKey (f : FeatureFlag) : Option (String × String) :=
  (f.spec.delivery.bind DeliverySpec.configMap).map fun delivery =>
    (delivery.configMapName, delivery.key)

/-- Two flags with different variables and different keys. -/
structure ToldApart (f g : FeatureFlag) : Prop where
  var : ∀ n, declaredVar f = some n → declaredVar g ≠ some n
  key : ∀ k, declaredKey f = some k → declaredKey g ≠ some k

/-- The flags stored under these keys are pairwise told apart. -/
def Noninterfering (keys : Finset ObjectKey) (s : Cluster) : Prop :=
  ∀ k ∈ keys, ∀ k' ∈ keys, k ≠ k' → ∀ f g, flagAt s k = some f →
    flagAt s k' = some g → ToldApart f g

theorem ToldApart.of_ne {f g : FeatureFlag}
    (hvar : declaredVar f ≠ declaredVar g)
    (hkey : declaredKey f ≠ declaredKey g) : ToldApart f g :=
  ⟨fun _ h h' => hvar (h.trans h'.symm), fun _ h h' => hkey (h.trans h'.symm)⟩

section
variable [Apimachinery]

theorem declaredVar_of_target {f : FeatureFlag} {t : EnvTarget}
    (ht : envTarget f = some t) : declaredVar f = some t.envName := by
  have hdel := (envTarget_eq_some.mp ht).2
  unfold envDelivery at hdel
  unfold declaredVar
  split at hdel
  · cases hdel
  · next delivery henv =>
      split at hdel
      · cases hdel
      · obtain rfl := Option.some.inj hdel
        rw [henv]
        rfl

theorem declaredKey_of_target {f : FeatureFlag} {delivery : ConfigMapDelivery}
    (ht : configMapTarget f = some delivery) :
    declaredKey f = some (delivery.configMapName, delivery.key) := by
  rw [declaredKey, (configMapTarget_eq_some ht).2]
  rfl

/-! ## One reconcile, one observation

Each of these says what the flag stored under `r` asks for, and nothing if there
is no such flag. The cluster is the one before the run; what flags ask for does
not change during it. -/

def askedDeployment (s : Cluster) (r : ObjectKey) (d : Deployment) :
    Deployment :=
  match flagAt s r with
  | none => d
  | some f => desiredDeployment f d

def askedConfigMap (s : Cluster) (k r : ObjectKey) (old : Option ConfigMap) :
    Option ConfigMap :=
  match flagAt s r with
  | none => old
  | some f => desiredConfigMap f k old

/-- The variable that the flag sets in the Deployment, and its value. -/
def askedVar (s : Cluster) (d : Deployment) (r : ObjectKey) :
    Option (String × String) :=
  (flagAt s r).bind fun f => (envTarget f).bind fun t =>
    if t.selects d then some (t.envName, f.spec.defaultValue) else none

/-- The key that the flag sets in the ConfigMap, and its value. -/
def askedKey (s : Cluster) (k r : ObjectKey) : Option (String × String) :=
  (flagAt s r).bind fun f => (configMapTarget f).bind fun delivery =>
    if k = ⟨f.metadata.ns, delivery.configMapName⟩ then
      some (delivery.key, f.spec.defaultValue)
    else none

def askedContainer (s : Cluster) (d : Deployment) (r : ObjectKey)
    (c : Container) : Container :=
  match askedVar s d r with
  | none => c
  | some (envName, value) => (injectContainer envName value c).1

def askedEntries (s : Cluster) (d : Deployment) (name : String)
    (r : ObjectKey) (es : List EnvVar) : List EnvVar :=
  match askedVar s d r with
  | none => es
  | some (envName, value) =>
      if envName = name then setFirst envName value es else es

def askedData (s : Cluster) (k : ObjectKey) (key : String) (r : ObjectKey)
    (old : String) : String :=
  match askedKey s k r with
  | none => old
  | some (key', value) => if key' = key then value else old

/-- A ConfigMap that is not there is created, always alike. -/
def askedMeta (s : Cluster) (k r : ObjectKey) (old : Option ObjectMeta) :
    Option ObjectMeta :=
  match askedKey s k r with
  | none => old
  | some _ => some (old.getD {
      name := k.name
      ns := k.ns
      labels := GoMap.single managedBy "vexil" })

theorem askedVar_of_declared {s : Cluster} {d : Deployment} {r : ObjectKey}
    {n v : String} (h : askedVar s d r = some (n, v)) :
    ∃ f, flagAt s r = some f ∧ declaredVar f = some n := by
  obtain ⟨f, hf, h⟩ := Option.bind_eq_some_iff.mp h
  obtain ⟨t, ht, h⟩ := Option.bind_eq_some_iff.mp h
  split at h
  · cases h
    exact ⟨f, hf, declaredVar_of_target ht⟩
  · cases h

theorem askedKey_of_declared {s : Cluster} {k r : ObjectKey} {n v : String}
    (h : askedKey s k r = some (n, v)) :
    ∃ f, flagAt s r = some f ∧ declaredKey f = some (k.name, n) := by
  obtain ⟨f, hf, h⟩ := Option.bind_eq_some_iff.mp h
  obtain ⟨delivery, ht, h⟩ := Option.bind_eq_some_iff.mp h
  split at h
  · next hk =>
      cases h
      subst hk
      exact ⟨f, hf, declaredKey_of_target ht⟩
  · cases h

/-- What is asked of a Deployment is asked by its metadata. -/
theorem askedVar_askedDeployment (s : Cluster) (r : ObjectKey)
    (d : Deployment) : askedVar s (askedDeployment s r d) = askedVar s d := by
  unfold askedDeployment
  split
  · rfl
  · next g hg =>
      funext r'
      unfold askedVar
      congr 1
      funext f
      cases ht : envTarget f with
      | none => rfl
      | some t =>
          rw [Option.bind_some, Option.bind_some, selects_desired ht]

theorem containers_askedDeployment (s : Cluster) (r : ObjectKey)
    (d : Deployment) : (askedDeployment s r d).template.containers =
      d.template.containers.map (askedContainer s d r) := by
  have hsame : askedVar s d r = none → d.template.containers =
      d.template.containers.map (askedContainer s d r) := by
    intro hvar
    have hid : askedContainer s d r = id := by
      funext c
      simp only [askedContainer, hvar]
      rfl
    rw [hid, List.map_id]
  unfold askedDeployment
  split
  · next hf => exact hsame (by simp [askedVar, hf])
  · next f hf =>
      cases ht : envTarget f with
      | none =>
          rw [desiredDeployment_of_none ht]
          exact hsame (by simp [askedVar, hf, ht])
      | some t =>
          cases hs : t.selects d with
          | false =>
              rw [desiredDeployment_of_not_selects ht hs]
              exact hsame (by simp [askedVar, hf, ht, hs])
          | true =>
              have hvar : askedVar s d r =
                  some (t.envName, f.spec.defaultValue) := by
                simp [askedVar, hf, ht, hs]
              have hcontainer : askedContainer s d r = fun c =>
                  (injectContainer t.envName f.spec.defaultValue c).1 := by
                funext c
                simp only [askedContainer, hvar]
              rw [desiredDeployment_of_selects ht hs, containers_injected,
                hcontainer]

theorem entries_askedContainer (s : Cluster) (d : Deployment) (n : String)
    (r : ObjectKey) (c : Container) :
    entries n (askedContainer s d r c).env =
      askedEntries s d n r (entries n c.env) := by
  unfold askedContainer askedEntries
  split
  · rfl
  · next envName value _ =>
      split
      · next h =>
          subst h
          exact entries_injectContainer_self envName value c
      · next h => exact entries_injectContainer_ne h value c

theorem askedContainer_frame (s : Cluster) (d : Deployment) (r : ObjectKey)
    (c : Container) :
    askedContainer s d r c = { c with env := (askedContainer s d r c).env } := by
  unfold askedContainer
  split
  · rfl
  · exact injectContainer_frame _ _ c

/-- What of a Deployment no reconcile touches. -/
structure SameFrame (d d' : Deployment) : Prop where
  metadata : d'.metadata = d.metadata
  replicas : d'.replicas = d.replicas
  annotations : ∀ k, k ≠ flagsHash →
    (orEmpty d'.template.annotations).lookup k =
      (orEmpty d.template.annotations).lookup k

omit [Apimachinery] in
theorem SameFrame.refl (d : Deployment) : SameFrame d d :=
  ⟨rfl, rfl, fun _ _ => rfl⟩

theorem sameFrame_askedDeployment (s : Cluster) (r : ObjectKey)
    (d : Deployment) : SameFrame d (askedDeployment s r d) := by
  unfold askedDeployment
  split
  · exact .refl d
  · next f hf =>
      cases ht : envTarget f with
      | none =>
          rw [desiredDeployment_of_none ht]
          exact .refl d
      | some t =>
          cases hs : t.selects d with
          | false =>
              rw [desiredDeployment_of_not_selects ht hs]
              exact .refl d
          | true =>
              rw [desiredDeployment_of_selects ht hs]
              exact ⟨metadata_injected _ _ _ d, replicas_injected _ _ _ d,
                fun k hk => annotations_injected _ _ _ k d hk⟩

theorem dataIndex_askedConfigMap (s : Cluster) (k r : ObjectKey) (key : String)
    (old : Option ConfigMap) : dataIndex key (askedConfigMap s k r old) =
      askedData s k key r (dataIndex key old) := by
  unfold askedConfigMap askedData askedKey
  cases hf : flagAt s r with
  | none => rfl
  | some f =>
      simp only [Option.bind_some]
      cases ht : configMapTarget f with
      | none => rw [desiredConfigMap_of_none ht]; rfl
      | some delivery =>
          rw [desiredConfigMap_of_some ht, Option.bind_some]
          split
          · dsimp only
            split
            · next hkey =>
                subst hkey
                exact deliveredConfigMap_index f delivery old
            · next hkey =>
                cases old with
                | none =>
                    show (GoMap.single delivery.key
                      f.spec.defaultValue).index key = _
                    rw [GoMap.index, GoMap.lookup_single,
                      if_neg (Ne.symm hkey)]
                    rfl
                | some cm =>
                    simp only [dataIndex, Option.bind_some, deliveredConfigMap]
                    split
                    · rw [orEmpty_some, GoMap.index, GoMap.lookup_insert,
                        if_neg (Ne.symm hkey)]
                      rfl
                    · rfl
          · rfl

theorem metadata_askedConfigMap (s : Cluster) (k r : ObjectKey)
    (old : Option ConfigMap) :
    (askedConfigMap s k r old).map ConfigMap.metadata =
      askedMeta s k r (old.map ConfigMap.metadata) := by
  unfold askedConfigMap askedMeta askedKey
  cases hf : flagAt s r with
  | none => rfl
  | some f =>
      simp only [Option.bind_some]
      cases ht : configMapTarget f with
      | none => rw [desiredConfigMap_of_none ht]; rfl
      | some delivery =>
          rw [desiredConfigMap_of_some ht, Option.bind_some]
          split
          · next hk =>
              subst hk
              cases old with
              | none => rfl
              | some cm =>
                  simp only [Option.map_some, deliveredConfigMap]
                  split
                  · rfl
                  · rfl
          · rfl

/-! ## The laws

Doing it twice is doing it once, and flags that are told apart commute: on one
observation at most one of them acts. -/

section
variable {keys : Finset ObjectKey} {s : Cluster}

theorem askedVar_ne (h : Noninterfering keys s) {d : Deployment}
    {r r' : ObjectKey} (hr : r ∈ keys) (hr' : r' ∈ keys) (hne : r ≠ r')
    {n v n' v' : String} (hv : askedVar s d r = some (n, v))
    (hv' : askedVar s d r' = some (n', v')) : n ≠ n' := by
  obtain ⟨f, hf, hvar⟩ := askedVar_of_declared hv
  obtain ⟨g, hg, hvar'⟩ := askedVar_of_declared hv'
  rintro rfl
  exact (h r hr r' hr' hne f g hf hg).var n hvar hvar'

theorem askedKey_ne (h : Noninterfering keys s) {k r r' : ObjectKey}
    (hr : r ∈ keys) (hr' : r' ∈ keys) (hne : r ≠ r') {n v n' v' : String}
    (hv : askedKey s k r = some (n, v)) (hv' : askedKey s k r' = some (n', v')) :
    n ≠ n' := by
  obtain ⟨f, hf, hkey⟩ := askedKey_of_declared hv
  obtain ⟨g, hg, hkey'⟩ := askedKey_of_declared hv'
  rintro rfl
  exact (h r hr r' hr' hne f g hf hg).key _ hkey hkey'

theorem askedEntries_idem (d : Deployment) (name : String) (r : ObjectKey)
    (es : List EnvVar) : askedEntries s d name r (askedEntries s d name r es) =
      askedEntries s d name r es := by
  unfold askedEntries
  cases askedVar s d r with
  | none => rfl
  | some nv =>
      dsimp only
      split
      · exact setFirst_setFirst _ _ es
      · rfl

theorem askedEntries_comm (h : Noninterfering keys s) (d : Deployment)
    (name : String) {r r' : ObjectKey} (hr : r ∈ keys) (hr' : r' ∈ keys)
    (es : List EnvVar) :
    askedEntries s d name r (askedEntries s d name r' es) =
      askedEntries s d name r' (askedEntries s d name r es) := by
  by_cases hne : r = r'
  · rw [hne]
  · unfold askedEntries
    cases hv : askedVar s d r with
    | none => rfl
    | some nv =>
        cases hv' : askedVar s d r' with
        | none => rfl
        | some nv' =>
            have hnames := askedVar_ne h hr hr' hne hv hv'
            dsimp only
            by_cases hn : nv.1 = name
            · have hn' : nv'.1 ≠ name := fun h => hnames (hn.trans h.symm)
              rw [if_neg hn', if_neg hn']
            · rw [if_neg hn, if_neg hn]

theorem askedData_idem (k : ObjectKey) (key : String) (r : ObjectKey)
    (old : String) : askedData s k key r (askedData s k key r old) =
      askedData s k key r old := by
  unfold askedData
  cases askedKey s k r with
  | none => rfl
  | some nv =>
      dsimp only
      split
      · rfl
      · rfl

theorem askedData_comm (h : Noninterfering keys s) (k : ObjectKey)
    (key : String) {r r' : ObjectKey} (hr : r ∈ keys) (hr' : r' ∈ keys)
    (old : String) : askedData s k key r (askedData s k key r' old) =
      askedData s k key r' (askedData s k key r old) := by
  by_cases hne : r = r'
  · rw [hne]
  · unfold askedData
    cases hv : askedKey s k r with
    | none => rfl
    | some nv =>
        cases hv' : askedKey s k r' with
        | none => rfl
        | some nv' =>
            have hnames := askedKey_ne h hr hr' hne hv hv'
            dsimp only
            by_cases hn : nv.1 = key
            · have hn' : nv'.1 ≠ key := fun h => hnames (hn.trans h.symm)
              rw [if_neg hn', if_neg hn']
            · rw [if_neg hn, if_neg hn]

theorem askedMeta_idem (k r : ObjectKey) (old : Option ObjectMeta) :
    askedMeta s k r (askedMeta s k r old) = askedMeta s k r old := by
  unfold askedMeta
  split
  · rfl
  · rfl

theorem askedMeta_comm (k r r' : ObjectKey) (old : Option ObjectMeta) :
    askedMeta s k r (askedMeta s k r' old) =
      askedMeta s k r' (askedMeta s k r old) := by
  unfold askedMeta
  cases askedKey s k r with
  | none => rfl
  | some _ =>
      cases askedKey s k r' with
      | none => rfl
      | some _ => rfl

end

/-! ## Many reconciles, one observation -/

theorem SameFrame.foldl (s : Cluster) (rs : List ObjectKey) {d₀ d : Deployment}
    (h : SameFrame d₀ d) :
    SameFrame d₀ (rs.foldl (fun d r => askedDeployment s r d) d) := by
  induction rs generalizing d with
  | nil => exact h
  | cons r rs ih =>
      have hstep := sameFrame_askedDeployment s r d
      exact ih ⟨hstep.metadata.trans h.metadata,
        hstep.replicas.trans h.replicas, fun k hk =>
          (hstep.annotations k hk).trans (h.annotations k hk)⟩

theorem containers_foldl (s : Cluster) (rs : List ObjectKey) (d : Deployment) :
    (rs.foldl (fun d r => askedDeployment s r d) d).template.containers =
      d.template.containers.map fun c =>
        rs.foldl (fun c r => askedContainer s d r c) c := by
  induction rs generalizing d with
  | nil => exact (List.map_id' _).symm
  | cons r rs ih =>
      have hsame : askedContainer s (askedDeployment s r d) =
          askedContainer s d := by
        funext r' c
        simp only [askedContainer, askedVar_askedDeployment]
      rw [List.foldl_cons, ih, containers_askedDeployment, List.map_map, hsame]
      rfl

theorem entries_foldl (s : Cluster) (d : Deployment) (n : String)
    (rs : List ObjectKey) (c : Container) :
    entries n (rs.foldl (fun c r => askedContainer s d r c) c).env =
      rs.foldl (fun es r => askedEntries s d n r es) (entries n c.env) := by
  induction rs generalizing c with
  | nil => rfl
  | cons r rs ih =>
      rw [List.foldl_cons, List.foldl_cons, ih, entries_askedContainer]

theorem frame_foldl (s : Cluster) (d : Deployment) (rs : List ObjectKey)
    (c : Container) : rs.foldl (fun c r => askedContainer s d r c) c =
      { c with env := (rs.foldl (fun c r => askedContainer s d r c) c).env } := by
  induction rs generalizing c with
  | nil => rfl
  | cons r rs ih =>
      rw [List.foldl_cons, ih, askedContainer_frame]

theorem dataIndex_foldl (s : Cluster) (k : ObjectKey) (key : String)
    (rs : List ObjectKey) (old : Option ConfigMap) :
    dataIndex key (rs.foldl (fun old r => askedConfigMap s k r old) old) =
      rs.foldl (fun old r => askedData s k key r old) (dataIndex key old) := by
  induction rs generalizing old with
  | nil => rfl
  | cons r rs ih =>
      rw [List.foldl_cons, List.foldl_cons, ih, dataIndex_askedConfigMap]

theorem metadata_foldl (s : Cluster) (k : ObjectKey) (rs : List ObjectKey)
    (old : Option ConfigMap) :
    (rs.foldl (fun old r => askedConfigMap s k r old) old).map
        ConfigMap.metadata =
      rs.foldl (fun old r => askedMeta s k r old)
        (old.map ConfigMap.metadata) := by
  induction rs generalizing old with
  | nil => rfl
  | cons r rs ih =>
      rw [List.foldl_cons, List.foldl_cons, ih, metadata_askedConfigMap]

/-- Two sequences of the same flags make the same of a Deployment. -/
theorem sameDeployment_foldl {keys : Finset ObjectKey} {s : Cluster}
    (h : Noninterfering keys s) {rs rs' : List ObjectKey}
    (hrs : ∀ r, r ∈ rs ↔ r ∈ keys) (hrs' : ∀ r, r ∈ rs' ↔ r ∈ keys)
    (d : Deployment) :
    SameDeployment (rs.foldl (fun d r => askedDeployment s r d) d)
      (rs'.foldl (fun d r => askedDeployment s r d) d) := by
  have hframe := SameFrame.foldl s rs (.refl d)
  have hframe' := SameFrame.foldl s rs' (.refl d)
  refine ⟨hframe'.metadata.trans hframe.metadata.symm,
    hframe'.replicas.trans hframe.replicas.symm, fun k hk =>
      (hframe'.annotations k hk).trans (hframe.annotations k hk).symm, ?_⟩
  rw [containers_foldl, containers_foldl, List.forall₂_map_left_iff,
    List.forall₂_map_right_iff, List.forall₂_same]
  intro c _
  have hfold := frame_foldl s d rs c
  have hfold' := frame_foldl s d rs' c
  refine ⟨?_, ?_, ?_, fun n => ?_⟩
  · rw [hfold, hfold']
  · rw [hfold, hfold']
  · rw [hfold, hfold']
  · rw [entries_foldl, entries_foldl]
    refine foldl_congr_mem (fun r => (hrs' r).trans (hrs r).symm)
      (fun r _ => askedEntries_idem d n r) (fun r hr r' hr' => ?_) _
    exact askedEntries_comm h d n ((hrs' r).mp hr) ((hrs' r').mp hr')

/-! ## The run -/

/-- One reconcile, of a flag and at a time, in which no call fails. -/
def Reconciled (s : Cluster) (r : ObjectKey × Nat) (s' : Cluster) : Prop :=
  ∃ tr result, Completes CleanStep (reconcile r.2 r.1) s tr result s'

/-- What the flags ask for is the same in both. -/
structure AsksAlike (s₀ s : Cluster) : Prop where
  flags : ∀ k, flagAt s k = flagAt s₀ k
  metadata : ∀ k, (deployAt s k).map Deployment.metadata =
    (deployAt s₀ k).map Deployment.metadata

/-- The status a flag gets, of the cluster before the run. -/
def recordedAt (s₀ : Cluster) (k : ObjectKey) : Option FeatureFlagStatus :=
  (flagAt s₀ k).map fun f => { recorded 0 f s₀ with lastUpdated := none }

/-- What reconciles of some flags have made of each object. -/
structure Progress (s₀ : Cluster) (rs : List ObjectKey) (s s' : Cluster) :
    Prop where
  alike : AsksAlike s₀ s'
  deployments : ∀ k, deployAt s' k = (deployAt s k).map fun d =>
    rs.foldl (fun d r => askedDeployment s₀ r d) d
  configMaps : ∀ k, configMapAt s' k =
    rs.foldl (fun old r => askedConfigMap s₀ k r old) (configMapAt s k)
  statuses : ∀ k, statusAt s' k =
    if k ∈ rs then recordedAt s₀ k else statusAt s k
  others : KeepsOthers s s'

theorem recorded_eq {s₀ s : Cluster} {k : ObjectKey} {f : FeatureFlag}
    (h : AsksAlike s₀ s) (hf : s.flags.get? k = some f) (now : Nat) :
    some { recorded now f s with lastUpdated := none } = recordedAt s₀ k := by
  have hflag : flagAt s₀ k = some f.declared := by
    rw [← h.flags, flagAt, hf]
    rfl
  have htargets : targets f.declared s₀ = targets f s := by
    rw [targets_declared, targets_congr h.metadata]
  rw [recordedAt, hflag, Option.map_some, Option.some.injEq]
  show _ = { (if f.spec.disabled then _ else if envFails f then _ else _ :
    FeatureFlagStatus) with lastUpdated := none }
  rw [htargets, recorded]
  split
  · rfl
  · split
    · rfl
    · rfl

theorem progress_step {s₀ s s' : Cluster} {r : ObjectKey × Nat}
    (h : AsksAlike s₀ s) (hstep : Reconciled s r s') :
    Progress s₀ [r.1] s s' := by
  obtain ⟨tr, result, hrun⟩ := hstep
  have hothers := run_keepsOthers hrun.2
  cases hf : s.flags.get? r.1 with
  | none =>
      have hflag : flagAt s₀ r.1 = none := by
        rw [← h.flags, flagAt, hf]
        rfl
      have hsame : s' = s := reconcile_missing hf
        (hrun.mono fun _ _ _ => CleanStep.kubeStep)
      subst hsame
      refine ⟨h, fun k => ?_, fun k => ?_, fun k => ?_, hothers⟩
      · simp [askedDeployment, hflag]
      · simp [askedConfigMap, hflag]
      · split
        · next hk =>
            obtain rfl := List.mem_singleton.mp hk
            rw [statusAt, hf, recordedAt, hflag]
            rfl
        · rfl
  | some f =>
      have hflag : flagAt s₀ r.1 = some f.declared := by
        rw [← h.flags, flagAt, hf]
        rfl
      obtain ⟨hreach, hdeclared, hrest⟩ := reconcile_clean hf hrun
      obtain ⟨g, hg, hstatus⟩ := reconcile_records hf hrun
      refine ⟨⟨fun k => (hdeclared k).trans (h.flags k), fun k =>
        (hreach.metadata k).trans (h.metadata k)⟩, fun k => ?_, fun k => ?_,
        fun k => ?_, hothers⟩
      · rw [hreach.allDeployments trivial]
        simp only [List.foldl_cons, List.foldl_nil, askedDeployment, hflag,
          desiredDeployment_declared]
      · rw [hreach.allConfigMaps trivial]
        simp only [List.foldl_cons, List.foldl_nil, askedConfigMap, hflag,
          desiredConfigMap_declared]
      · split
        · next hk =>
            obtain rfl := List.mem_singleton.mp hk
            rw [← recorded_eq h hf r.2, statusAt, hg, Option.map_some, hstatus]
        · next hk =>
            rw [List.mem_singleton] at hk
            rw [statusAt, statusAt, hrest k hk]

theorem progress_run {s₀ s s' : Cluster} {rs : List (ObjectKey × Nat)}
    (h : AsksAlike s₀ s) (hrun : Run Reconciled s rs s') :
    Progress s₀ (rs.map Prod.fst) s s' := by
  induction hrun with
  | nil =>
      exact ⟨h, fun k => by simp, fun k => rfl, fun k => by simp, rfl, rfl⟩
  | @cons s m s' r rs hstep _ ih =>
      have hone := progress_step h hstep
      obtain ⟨halike, hdeploy, hconf, hstatus, hothers⟩ := ih hone.alike
      refine ⟨halike, fun k => ?_, fun k => ?_, fun k => ?_,
        hothers.1.trans hone.others.1, hothers.2.trans hone.others.2⟩
      · rw [hdeploy, hone.deployments, Option.map_map]
        rfl
      · rw [hconf, hone.configMaps]
        rfl
      · rw [hstatus, hone.statuses]
        by_cases hk : k ∈ rs.map Prod.fst
        · rw [if_pos hk, List.map_cons, if_pos (.tail _ hk)]
        · rw [if_neg hk, List.map_cons]
          by_cases hr : k = r.1
          · rw [if_pos (List.mem_singleton.mpr hr), if_pos (hr ▸ .head _)]
          · have hnot : k ∉ r.1 :: rs.map Prod.fst := fun h =>
              (List.mem_cons.mp h).elim hr hk
            rw [if_neg fun h => hr (List.mem_singleton.mp h), if_neg hnot]

/-- Reconciles of a set of flags, each of them at least once. -/
def AttemptsAll (keys : Finset ObjectKey) (rs : List (ObjectKey × Nat)) :
    Prop := ∀ k, k ∈ rs.map Prod.fst ↔ k ∈ keys

/-- Whatever the order of the reconciles and however often each is repeated,
what is left is the same. -/
theorem flags_do_not_interfere {keys : Finset ObjectKey} {s s₁ s₂ : Cluster}
    {rs rs' : List (ObjectKey × Nat)} (hapart : Noninterfering keys s)
    (hcovers : AttemptsAll keys rs) (hcovers' : AttemptsAll keys rs')
    (hrun : Run Reconciled s rs s₁) (hrun' : Run Reconciled s rs' s₂) :
    SameUpToOrder s₁ s₂ := by
  have hrefl : AsksAlike s s := ⟨fun _ => rfl, fun _ => rfl⟩
  have h₁ := progress_run hrefl hrun
  have h₂ := progress_run hrefl hrun'
  have hmem : ∀ k, k ∈ rs'.map Prod.fst ↔ k ∈ rs.map Prod.fst :=
    fun k => (hcovers' k).trans (hcovers k).symm
  have hin : ∀ {k}, k ∈ rs'.map Prod.fst → k ∈ keys :=
    fun hk => (hcovers' _).mp hk
  refine ⟨fun k => ?_, fun k => ?_, fun k key => ?_, fun k => ?_, fun k => ?_,
    ?_⟩
  · rw [h₁.deployments, h₂.deployments]
    cases deployAt s k with
    | none => exact .none
    | some d => exact .some (sameDeployment_foldl hapart hcovers hcovers' d)
  · rw [h₁.configMaps, h₂.configMaps, metadata_foldl, metadata_foldl]
    exact foldl_congr_mem hmem (fun r _ => askedMeta_idem k r)
      (fun r _ r' _ => askedMeta_comm k r r') _
  · rw [h₁.configMaps, h₂.configMaps, dataIndex_foldl, dataIndex_foldl]
    exact foldl_congr_mem hmem (fun r _ => askedData_idem k key r)
      (fun r hr r' hr' => askedData_comm hapart k key (hin hr) (hin hr')) _
  · rw [h₁.alike.flags, h₂.alike.flags]
  · rw [h₁.statuses, h₂.statuses]
    by_cases hk : k ∈ rs.map Prod.fst
    · rw [if_pos hk, if_pos ((hmem k).mpr hk)]
    · rw [if_neg hk, if_neg fun h => hk ((hmem k).mp h)]
  · exact ⟨h₂.others.1.trans h₁.others.1.symm,
      h₂.others.2.trans h₁.others.2.symm⟩

end

/-! Two flags for one Deployment, and for one ConfigMap that is not there yet.
The value of the second is empty, so whether it has a key depends on the order. -/

def betaFlag : FeatureFlag where
  metadata := { name := "beta", ns := "default" }
  spec := {
    type := .string
    defaultValue := ""
    delivery := some {
      envVar := some { selector := some (sampleSelector "web") }
      configMap := some ⟨"flags", "beta", none⟩ } }

def twoFlags : Cluster where
  flags := (VTable.empty.write retryFlag).write betaFlag
  deployments := VTable.empty.write (sampleDeployment "web" "web" [])

theorem twoFlags_noninterfering :
    Noninterfering {⟨"default", "dark-mode"⟩, ⟨"default", "beta"⟩} twoFlags := by
  have hdark : flagAt twoFlags ⟨"default", "dark-mode"⟩ =
      some retryFlag.declared := rfl
  have hbeta : flagAt twoFlags ⟨"default", "beta"⟩ =
      some betaFlag.declared := rfl
  have hvar : declaredVar retryFlag.declared ≠ declaredVar betaFlag.declared := by
    decide +kernel
  have hkey : declaredKey retryFlag.declared ≠ declaredKey betaFlag.declared := by
    decide +kernel
  intro k hk k' hk' hne f g hf hg
  rw [Finset.mem_insert, Finset.mem_singleton] at hk hk'
  rcases hk with rfl | rfl
  · rcases hk' with rfl | rfl
    · exact absurd rfl hne
    · rw [hdark] at hf
      rw [hbeta] at hg
      cases hf
      cases hg
      exact .of_ne hvar hkey
  · rcases hk' with rfl | rfl
    · rw [hbeta] at hf
      rw [hdark] at hg
      cases hf
      cases hg
      exact .of_ne hvar.symm hkey.symm
    · exact absurd rfl hne

theorem flags_do_not_interfere_sample :
    letI := labelSelectors
    let dark : ObjectKey := ⟨"default", "dark-mode"⟩
    let beta : ObjectKey := ⟨"default", "beta"⟩
    SameUpToOrder (attempt beta 2 (attempt dark 1 twoFlags))
      (attempt beta 5 (attempt dark 4 (attempt beta 3 twoFlags))) := by
  let := labelSelectors
  intro dark beta
  have hstep : ∀ k now s, Reconciled s (k, now) (attempt k now s) :=
    fun k now s => ⟨_, _, attempt_clean k now s⟩
  have hcovers : AttemptsAll {dark, beta} [(dark, 1), (beta, 2)] :=
    fun k => by simp [dark, beta]
  have hcovers' : AttemptsAll {dark, beta} [(beta, 3), (dark, 4), (beta, 5)] :=
    fun k => by simp [dark, beta]; tauto
  exact flags_do_not_interfere twoFlags_noninterfering hcovers hcovers'
    (.cons (hstep _ _ _) (.cons (hstep _ _ _) .nil))
    (.cons (hstep _ _ _) (.cons (hstep _ _ _) (.cons (hstep _ _ _) .nil)))

end Vexil.Operator
