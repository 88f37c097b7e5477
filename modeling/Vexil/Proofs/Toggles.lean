import Vexil.Proofs.FlagSerial
import Vexil.Sdk.Client

/-!
# What a toggle does to an application

`Toggle` knows one text for true, and writes `"true"` over everything else. The
SDK knows six texts for true and six for false. Between the two, a false value
of any spelling becomes true and the text `"true"` becomes false, but any other
spelling of true stays true.
-/

namespace Vexil.Server

open Vexil.Lib Vexil.Kube Vexil.Sdk

section
variable [Bcrypt] [ClientGo]

/-! ## One request alone -/

/-- An edit that is served with nothing in between, is sent to a cluster and is
answered with 200. -/
def EditsFlag (e : FlagEdit) (client : Endpoint) (s s' : ServerState) : Prop :=
  ∃ tr resp, Completes ServerStep e.prog s tr resp s' ∧ resp.status = 200 ∧
    ⟨.clusters (.getClient e.clusterID), .ok client⟩ ∈ tr

/-- It has changed the spec that was stored. -/
theorem EditsFlag.spec {e : FlagEdit} {client : Endpoint} {s s' : ServerState}
    (h : EditsFlag e client s s') :
    ∃ flag, (s.kube client).flags.get? e.key = some flag ∧
      specAt s' client e.key = some (e.change flag.spec).stored := by
  obtain ⟨tr, resp, ⟨hpath, hrun⟩, hok, hclient⟩ := h
  rcases edit_path hpath with ⟨hno, _⟩ |
    ⟨_, client', flag, stored, audit, done, rfl⟩
  · exact absurd hok hno
  · obtain rfl : client = client' := by simpa using hclient
    obtain ⟨m₁, hget, hrun⟩ := run_cons.mp hrun
    obtain ⟨m₂, hread, hrun⟩ := run_cons.mp hrun
    obtain ⟨m₃, hwrite, hrun⟩ := run_cons.mp hrun
    obtain ⟨m₄, haudit, hrun⟩ := run_cons.mp hrun
    obtain rfl := run_nil.mp hrun
    obtain rfl := harmless_step hget trivial
    obtain rfl : m₂ = m₁ := harmless_step hread trivial
    obtain ⟨k, ⟨_, hpast⟩, _⟩ := hread
    obtain ⟨hpast, hkey⟩ := hpast flag rfl
    obtain ⟨k', hk', rfl⟩ := hwrite
    obtain ⟨uuid, _, rfl⟩ := haudit
    obtain ⟨hstored, hspec⟩ := spec_update hk' hpast (metadata_edit e flag)
    rw [hkey] at hstored
    refine ⟨flag, hstored, ?_⟩
    show (((m₂.setKube client k').kube client).flags.get? e.key).map _ = _
    rw [kube_setKube_self, hspec, if_pos hkey, spec_edit]

/-- A toggle of the flag under this key, answered with 200. -/
def Toggles (client : Endpoint) (key : ObjectKey) (s s' : ServerState) : Prop :=
  ∃ e : FlagEdit, e.kind = .toggle ∧ e.key = key ∧ EditsFlag e client s s'

theorem Toggles.spec {client : Endpoint} {key : ObjectKey} {s s' : ServerState}
    {spec : FeatureFlagSpec} (h : Toggles client key s s')
    (hspec : specAt s client key = some spec) :
    ∃ spec', specAt s' client key = some spec' ∧
      spec'.defaultValue = toggleText spec.defaultValue := by
  obtain ⟨e, hkind, rfl, h⟩ := h
  obtain ⟨flag, hflag, hafter⟩ := h.spec
  have hflag' : flag.spec = spec := by
    rw [specAt, hflag] at hspec
    exact Option.some.inj hspec
  refine ⟨_, hafter, ?_⟩
  rw [← hflag', FlagEdit.change, hkind]
  rfl

end

/-! ## What an application sees -/

/-- A value arrives under a name, by any provider. -/
def Receives (c : Client) (name value : String) : Prop :=
  ∃ f, c.provider name = .ok f ∧ f.disabled = false ∧ f.value = value

/-- Where this value arrives, `Bool` gives `b`. -/
def Sees (value : String) (b : Bool) : Prop :=
  ∀ c name, Receives c name value → ∀ d, Client.bool c name d = b

theorem sees_iff {value : String} {b : Bool} :
    Sees value b ↔ parseBool value = some b := by
  constructor
  · intro h
    have hbool := h ⟨fun _ => .ok ⟨"", "", value, false⟩⟩ "" ⟨_, rfl, rfl, rfl⟩
      (!b)
    cases hparse : parseBool value with
    | none => simp [Client.bool, hparse] at hbool
    | some b' => simpa [Client.bool, hparse] using hbool
  · rintro hparse c name ⟨f, hf, hdis, rfl⟩ d
    simp [Client.bool, hf, hdis, hparse]

theorem parseBool_true : parseBool "true" = some true := by decide

theorem parseBool_false : parseBool "false" = some false := by decide

/-- The application that reads this flag sees `b`. -/
def SeesFlag [Bcrypt] (s : ServerState) (client : Endpoint) (key : ObjectKey)
    (b : Bool) : Prop :=
  ∃ spec, specAt s client key = some spec ∧ Sees spec.defaultValue b

theorem seesFlag_iff [Bcrypt] {s : ServerState} {client : Endpoint}
    {key : ObjectKey} {spec : FeatureFlagSpec} {b : Bool}
    (hspec : specAt s client key = some spec) :
    SeesFlag s client key b ↔ parseBool spec.defaultValue = some b := by
  rw [← sees_iff]
  constructor
  · rintro ⟨spec', hspec', h⟩
    rw [hspec] at hspec'
    cases hspec'
    exact h
  · exact fun h => ⟨spec, hspec, h⟩

theorem parseBool_toggleText_true {value : String} (hvalue : value = "true") :
    parseBool (toggleText value) = some false := by
  rw [toggleText, if_pos hvalue, parseBool_false]

theorem parseBool_toggleText {value : String} (hvalue : value ≠ "true") :
    parseBool (toggleText value) = some true := by
  rw [toggleText, if_neg hvalue, parseBool_true]

/-- A toggle flips what applications see, and a second one restores it, exactly
if the value was the text `"true"` or one of the texts for false. -/
theorem toggle_flips_iff [Bcrypt] [ClientGo] {client : Endpoint}
    {key : ObjectKey} {s s₁ : ServerState} {spec : FeatureFlagSpec}
    {b : Bool} (hspec : specAt s client key = some spec)
    (hb : SeesFlag s client key b) (h₁ : Toggles client key s s₁) :
    (SeesFlag s₁ client key (!b) ∧
        ∀ s₂, Toggles client key s₁ s₂ → SeesFlag s₂ client key b) ↔
      spec.defaultValue = "true" ∨
        parseBool spec.defaultValue = some false := by
  obtain ⟨spec₁, hspec₁, hvalue₁⟩ := h₁.spec hspec
  have hparse := (seesFlag_iff hspec).mp hb
  rw [seesFlag_iff hspec₁, hvalue₁, hparse, Option.some.injEq]
  by_cases htrue : spec.defaultValue = "true"
  · rw [htrue, parseBool_true] at hparse
    cases hparse
    refine iff_of_true ⟨parseBool_toggleText_true htrue, fun s₂ h₂ => ?_⟩
      (.inl htrue)
    have hback : toggleText spec.defaultValue ≠ "true" := by
      rw [toggleText, if_pos htrue]
      decide
    obtain ⟨spec₂, hspec₂, hvalue₂⟩ := h₂.spec hspec₁
    rw [seesFlag_iff hspec₂, hvalue₂, hvalue₁]
    exact parseBool_toggleText hback
  · have hnew : toggleText spec.defaultValue = "true" := if_neg htrue
    rw [parseBool_toggleText htrue, Option.some.injEq, or_iff_right htrue]
    constructor
    · rintro ⟨hflip, _⟩
      cases b with
      | false => rfl
      | true => exact absurd hflip (by decide)
    · rintro rfl
      refine ⟨rfl, fun s₂ h₂ => ?_⟩
      obtain ⟨spec₂, hspec₂, hvalue₂⟩ := h₂.spec hspec₁
      rw [seesFlag_iff hspec₂, hvalue₂, hvalue₁]
      exact parseBool_toggleText_true hnew

/-! A flag that was created with one spelling or another, and toggled twice. -/

def spelledFlag (value : String) : FeatureFlag :=
  { toggledFlag with spec.defaultValue := value }

def spelledServer (value : String) : ServerState :=
  { toggledServer with
    kube := fun _ => { flags := VTable.empty.write (spelledFlag value) } }

def darkKey : ObjectKey := ⟨"default", "dark-mode"⟩

/-- An edit of that flag. -/
def darkEdit (kind : EditKind) (body : RequestBody) : FlagEdit where
  kind := kind
  request :=
    { method := "PUT"
      url := ⟨"/dark", "/dark", by decide +kernel⟩
      query := fun _ => "prod"
      body := body }
  pathValue name := if name = "namespace" then "default" else "dark-mode"

/-- The edit with nothing in between. -/
def editAlone (e : FlagEdit) (s : ServerState) :
    List ServerEvent × Response × ServerState :=
  letI := plainBcrypt
  letI := anyHost
  e.prog.exec (ServerCall.serve {}) s

theorem editAlone_edits {kind : EditKind} {body : RequestBody} {s : ServerState}
    (hok : (editAlone (darkEdit kind body) s).2.1.status = 200)
    (hclients : s.clusters = toggledServer.clusters) :
    letI := plainBcrypt
    letI := anyHost
    EditsFlag (darkEdit kind body) "prod" s
      (editAlone (darkEdit kind body) s).2.2 := by
  let := plainBcrypt
  let := anyHost
  refine ⟨(editAlone (darkEdit kind body) s).1, _,
    ((darkEdit kind body).prog.exec_completes _ s).mono
      fun _ _ _ => serve_step, hok, ?_⟩
  obtain ⟨store, clusters, kube, now⟩ := s
  dsimp only at hclients
  subst hclients
  cases kind with
  | update => exact List.mem_cons_self
  | toggle => exact List.mem_cons_self

def spelledRun (s : ServerState) :
    List ServerEvent × Response × ServerState :=
  editAlone (darkEdit .toggle {}) s

theorem spelledRun_toggles {s : ServerState}
    (hok : (spelledRun s).2.1.status = 200)
    (hclients : s.clusters = toggledServer.clusters) :
    letI := plainBcrypt
    letI := anyHost
    Toggles "prod" darkKey s (spelledRun s).2.2 :=
  letI := plainBcrypt
  letI := anyHost
  ⟨darkEdit .toggle {}, rfl, rfl, editAlone_edits hok hclients⟩

theorem toggle_flips_iff_sample :
    letI := plainBcrypt
    letI := anyHost
    let s₁ := (spelledRun (spelledServer "true")).2.2
    SeesFlag s₁ "prod" darkKey (!true) ∧
      ∀ s₂, Toggles "prod" darkKey s₁ s₂ →
        SeesFlag s₂ "prod" darkKey true := by
  let := plainBcrypt
  let := anyHost
  have hspec : specAt (spelledServer "true") "prod" darkKey =
      some { toggledFlag.spec with defaultValue := "true" } := by decide
  exact (toggle_flips_iff hspec ((seesFlag_iff hspec).mpr parseBool_true)
    (spelledRun_toggles (by decide) rfl)).mpr (.inl rfl)

/-- A true flag that is still true when it has been toggled. -/
theorem toggle_keeps_true :
    letI := plainBcrypt
    letI := anyHost
    let s := spelledServer "1"
    let s₁ := (spelledRun s).2.2
    (specAt s "prod" darkKey).map (·.defaultValue) = some "1" ∧
      SeesFlag s "prod" darkKey true ∧ Toggles "prod" darkKey s s₁ ∧
      SeesFlag s₁ "prod" darkKey true ∧
      ¬ SeesFlag s₁ "prod" darkKey (!true) := by
  let := plainBcrypt
  let := anyHost
  have hspec : specAt (spelledServer "1") "prod" darkKey =
      some { toggledFlag.spec with defaultValue := "1" } := by decide
  have hafter : specAt (spelledRun (spelledServer "1")).2.2 "prod" darkKey =
      some { toggledFlag.spec with defaultValue := "true" } := by decide
  refine ⟨by rw [hspec]; rfl, (seesFlag_iff hspec).mpr (by decide),
    spelledRun_toggles (by decide) rfl,
    (seesFlag_iff hafter).mpr parseBool_true, fun h => ?_⟩
  have hparse := (seesFlag_iff hafter).mp h
  rw [parseBool_true] at hparse
  cases hparse

end Vexil.Server
