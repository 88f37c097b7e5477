import Vexil.Kube.Snapshots
import Vexil.Server.Flags

/-!
# Edits of one flag, at the same time

`PUT` and toggle each read a whole flag, change some of its spec and write the
whole flag back. Any number of them run here at once, call by call, while the
operator writes statuses and others edit, delete and create the same flag. The
spec that is stored is at every moment what one gets by applying, one after
another and in the order in which they were accepted, the changes of exactly
those requests that were or will be answered with 200.

That is so as long as what is written back can be sent. A port that is 0 cannot:
it is left out, and the schema puts another one in its place, so a toggle of a
flag with such a port changes its delivery (`toggle_moves_port`).

The argument has three parts. `edit_path` says what a request can have done by
the time it answers: nothing, and then the status is not 200, or one accepted
update of what it read. `eq_of_version` says that what an accepted update was
computed from is what is stored. And so the step at which it is accepted stores
the request's change of the stored spec, whatever happened since the read
(`own_step`), and that is the change itself exactly if it can be sent
(`commits_iff`).
-/

namespace Vexil.Server

open Vexil.Lib Vexil.Kube

/-! ## A request to edit a flag -/

inductive EditKind where
  | update | toggle
  deriving DecidableEq

structure FlagEdit where
  kind : EditKind
  request : Request
  ctx : UserContext := {}
  pathValue : String → String

namespace FlagEdit

def key (e : FlagEdit) : ObjectKey := ⟨e.pathValue "namespace", e.pathValue "name"⟩

def clusterID (e : FlagEdit) : String := e.request.query "clusterId"

/-- The handler at work. -/
def prog (e : FlagEdit) : ServerProg Response :=
  match e.kind with
  | .update => FlagHandler.update e.request e.ctx e.pathValue
  | .toggle => FlagHandler.toggle e.request e.ctx e.pathValue

/-- What the handler makes of the object it read. -/
def edit (e : FlagEdit) (flag : FeatureFlag) : FeatureFlag :=
  match e.kind with
  | .update => (e.request.body.updates.getD {}).assign flag
  | .toggle => toggleValue flag

end FlagEdit

def toggleText (value : String) : String :=
  if value = "true" then "false" else "true"

/-- What the request asks for: the fields it names, and no others. -/
def FlagEdit.change (e : FlagEdit) (spec : FeatureFlagSpec) : FeatureFlagSpec :=
  match e.kind with
  | .toggle => { spec with defaultValue := toggleText spec.defaultValue }
  | .update =>
      let updates := e.request.body.updates.getD {}
      { spec with
        description := updates.description.getD spec.description
        defaultValue := updates.defaultValue.getD spec.defaultValue
        disabled := updates.disabled.getD spec.disabled
        delivery := updates.delivery.or spec.delivery
        rules := updates.rules.getD spec.rules }

/-- The delivery that the request names. -/
def FlagEdit.delivery (e : FlagEdit) : Option DeliverySpec :=
  match e.kind with
  | .toggle => none
  | .update => e.request.body.updates.bind FlagUpdates.delivery

/-- The flag can be written back as the request has it: the delivery that it
names, or else the stored one, and the lifecycle can be sent. -/
def FlagEdit.sendsWhole (e : FlagEdit) (spec : FeatureFlagSpec) : Bool :=
  (e.delivery.or spec.delivery).all DeliverySpec.sendable &&
    spec.lifecycle ≠ .unset

theorem sendable_change (e : FlagEdit) (spec : FeatureFlagSpec) :
    (e.change spec).sendable = e.sendsWhole spec := by
  unfold FlagEdit.change FlagEdit.sendsWhole FlagEdit.delivery
  split
  · rfl
  · cases e.request.body.updates <;> rfl

theorem metadata_assign (updates : FlagUpdates) (flag : FeatureFlag) :
    (updates.assign flag).metadata = flag.metadata := by
  obtain ⟨a, b, c, d, e⟩ := updates
  cases a <;> cases b <;> cases c <;> cases d <;> cases e <;> rfl

theorem spec_assign (updates : FlagUpdates) (flag : FeatureFlag) :
    (updates.assign flag).spec =
      { flag.spec with
        description := updates.description.getD flag.spec.description
        defaultValue := updates.defaultValue.getD flag.spec.defaultValue
        disabled := updates.disabled.getD flag.spec.disabled
        delivery := updates.delivery.or flag.spec.delivery
        rules := updates.rules.getD flag.spec.rules } := by
  obtain ⟨a, b, c, d, e⟩ := updates
  cases a <;> cases b <;> cases c <;> cases d <;> cases e <;> rfl

theorem metadata_edit (e : FlagEdit) (flag : FeatureFlag) :
    (e.edit flag).metadata = flag.metadata := by
  unfold FlagEdit.edit
  split
  · exact metadata_assign _ flag
  · unfold toggleValue
    split <;> rfl

/-- The assignments of the handler are the change the request names. -/
theorem spec_edit (e : FlagEdit) (flag : FeatureFlag) :
    (e.edit flag).spec = e.change flag.spec := by
  unfold FlagEdit.edit FlagEdit.change
  split
  · next hkind =>
      rw [hkind]
      exact spec_assign _ flag
  · next hkind =>
      rw [hkind]
      unfold toggleValue toggleText
      split <;> rfl

/-! ## What a request can have done when it answers -/

/-- A lookup, or a write that was refused. -/
def Harmless : ServerEvent → Prop
  | ⟨.clusters (.getClient _), _⟩ => True
  | ⟨.kube _ (.getFlag _), _⟩ => True
  | ⟨.kube _ (.updateFlag _), .error _⟩ => True
  | _ => False

theorem withFlag_path {r : Request} {pathValue : String → String}
    {k : Endpoint → FeatureFlag → ServerProg Response} {tr : List ServerEvent}
    {resp : Response}
    (h : Prog.Path (FlagHandler.withFlag r pathValue k) tr (.ret resp)) :
    resp.status ≠ 200 ∧ (∀ ev ∈ tr, Harmless ev) ∨
    ∃ client flag tr', tr =
        ⟨.clusters (.getClient (r.query "clusterId")), .ok client⟩ ::
        ⟨.kube client (.getFlag ⟨pathValue "namespace", pathValue "name"⟩),
          .ok flag⟩ :: tr' ∧
      Prog.Path (k client flag) tr' (.ret resp) := by
  unfold FlagHandler.withFlag withClient at h
  dsimp only at h
  split at h
  · obtain ⟨rfl, hret⟩ := Prog.path_ret.mp h
    cases hret
    exact .inl ⟨by decide, by simp⟩
  · obtain ⟨client?, tr, rfl, hnext⟩ := Prog.path_call_ret.mp h
    cases client? with
    | error err =>
        obtain ⟨rfl, hret⟩ := Prog.path_ret.mp hnext
        cases hret
        exact .inl ⟨by simp [writeError, writeJSON], by simp [Harmless]⟩
    | ok client =>
        obtain ⟨flag?, tr, rfl, hrest⟩ := Prog.path_call_ret.mp hnext
        cases flag? with
        | error err =>
            obtain ⟨rfl, hret⟩ := Prog.path_ret.mp hrest
            cases hret
            exact .inl ⟨by simp [writeError, writeJSON], by simp [Harmless]⟩
        | ok flag => exact .inr ⟨client, flag, tr, rfl, hrest⟩

theorem writeFlag_path {r : Request} {pathValue : String → String}
    {verb action : String} {client : Endpoint} {flag : FeatureFlag}
    {tr : List ServerEvent} {resp : Response}
    (h : Prog.Path (FlagHandler.writeFlag r pathValue verb action client flag)
      tr (.ret resp)) :
    resp.status ≠ 200 ∧ (∀ ev ∈ tr, Harmless ev) ∨
    resp.status = 200 ∧ ∃ stored audit done, tr =
      [⟨.kube client (.updateFlag flag), .ok stored⟩,
        ⟨.store (.recordAudit audit), done⟩] := by
  unfold FlagHandler.writeFlag recordAudit at h
  obtain ⟨stored?, tr, rfl, hnext⟩ := Prog.path_call_ret.mp h
  cases stored? with
  | error err =>
      obtain ⟨rfl, hret⟩ := Prog.path_ret.mp hnext
      cases hret
      exact .inl ⟨by simp [writeError, writeJSON], by simp [Harmless]⟩
  | ok stored =>
      obtain ⟨done, tr, rfl, hend⟩ := Prog.path_call_ret.mp hnext
      obtain ⟨rfl, hret⟩ := Prog.path_ret.mp hend
      cases hret
      exact .inr ⟨rfl, stored, _, done, rfl⟩

/-- An answer other than 200 after lookups and refused writes, or 200 after one
accepted update of what was read. -/
theorem edit_path {e : FlagEdit} {tr : List ServerEvent} {resp : Response}
    (h : Prog.Path e.prog tr (.ret resp)) :
    resp.status ≠ 200 ∧ (∀ ev ∈ tr, Harmless ev) ∨
    resp.status = 200 ∧ ∃ client flag stored audit done, tr =
      [⟨.clusters (.getClient e.clusterID), .ok client⟩,
        ⟨.kube client (.getFlag e.key), .ok flag⟩,
        ⟨.kube client (.updateFlag (e.edit flag)), .ok stored⟩,
        ⟨.store (.recordAudit audit), done⟩] := by
  have hbody : ∀ (k : Endpoint → FeatureFlag → ServerProg Response),
      Prog.Path (FlagHandler.withFlag e.request e.pathValue k) tr (.ret resp) →
      (∀ client flag tr', Prog.Path (k client flag) tr' (.ret resp) →
        resp.status ≠ 200 ∧ tr' = [] ∨ ∃ verb action,
          Prog.Path (FlagHandler.writeFlag e.request e.pathValue verb action
            client (e.edit flag)) tr' (.ret resp)) →
      resp.status ≠ 200 ∧ (∀ ev ∈ tr, Harmless ev) ∨
      resp.status = 200 ∧ ∃ client flag stored audit done, tr =
        [⟨.clusters (.getClient e.clusterID), .ok client⟩,
          ⟨.kube client (.getFlag e.key), .ok flag⟩,
          ⟨.kube client (.updateFlag (e.edit flag)), .ok stored⟩,
          ⟨.store (.recordAudit audit), done⟩] := by
    intro k hpath hk
    rcases withFlag_path hpath with hno | ⟨client, flag, tr', rfl, hrest⟩
    · exact .inl hno
    · rcases hk client flag tr' hrest with ⟨hstatus, rfl⟩ | ⟨verb, action, hw⟩
      · exact .inl ⟨hstatus, by simp [Harmless]⟩
      · rcases writeFlag_path hw with ⟨hstatus, hall⟩ |
          ⟨hstatus, stored, audit, done, rfl⟩
        · exact .inl ⟨hstatus, by simpa [Harmless] using hall⟩
        · exact .inr ⟨hstatus, client, flag, stored, audit, done, rfl⟩
  unfold FlagEdit.prog at h
  split at h
  · next hkind =>
      refine hbody _ h fun client flag tr' hrest => ?_
      split at hrest
      · obtain ⟨rfl, hret⟩ := Prog.path_ret.mp hrest
        cases hret
        exact .inl ⟨by simp [writeError, writeJSON], rfl⟩
      · next updates hupdates =>
          have hedit : e.edit flag = updates.assign flag := by
            simp [FlagEdit.edit, hkind, hupdates]
          exact .inr ⟨_, _, hedit ▸ hrest⟩
  · next hkind =>
      refine hbody _ h fun client flag tr' hrest => ?_
      split at hrest
      · obtain ⟨rfl, hret⟩ := Prog.path_ret.mp hrest
        cases hret
        exact .inl ⟨by simp [writeError, writeJSON], rfl⟩
      · have hedit : e.edit flag = toggleValue flag := by
          simp [FlagEdit.edit, hkind]
        exact .inr ⟨_, _, hedit ▸ hrest⟩

/-- Any call of a request, whether it has answered yet or not. -/
theorem edit_event {e : FlagEdit} {pre post : List ServerEvent}
    {ev : ServerEvent} {q : ServerProg Response}
    (h : Prog.Path e.prog (pre ++ ev :: post) q) :
    Harmless ev ∨ (∃ audit done, ev = ⟨.store (.recordAudit audit), done⟩) ∨
    ∃ client flag stored, pre =
        [⟨.clusters (.getClient e.clusterID), .ok client⟩,
          ⟨.kube client (.getFlag e.key), .ok flag⟩] ∧
      ev = ⟨.kube client (.updateFlag (e.edit flag)), .ok stored⟩ := by
  obtain ⟨tr, resp, hend⟩ := Prog.exists_path_ret ServerCall.reply_nonempty q
  rcases edit_path (h.append hend) with ⟨_, hall⟩ |
    ⟨_, client, flag, stored, audit, done, hlist⟩
  · exact .inl (hall ev (by simp))
  · rcases pre with _ | ⟨x, _ | ⟨y, _ | ⟨z, pre⟩⟩⟩
    · obtain ⟨rfl, _⟩ : ev = _ ∧ _ := by simpa using hlist
      exact .inl trivial
    · obtain ⟨rfl, rfl, _⟩ : x = _ ∧ ev = _ ∧ _ := by simpa using hlist
      exact .inl trivial
    · obtain ⟨rfl, rfl, rfl, _⟩ : x = _ ∧ y = _ ∧ ev = _ ∧ _ := by
        simpa using hlist
      exact .inr (.inr ⟨client, flag, stored, rfl, rfl⟩)
    · obtain ⟨rfl, rfl, rfl, htail⟩ : x = _ ∧ y = _ ∧ z = _ ∧ _ := by
        simpa using hlist
      rcases pre with _ | ⟨w, pre⟩
      · obtain ⟨rfl, _⟩ : ev = _ ∧ _ := by simpa using htail
        exact .inr (.inl ⟨audit, done, rfl⟩)
      · simp at htail

/-! ## Steps of the server -/

/-- The spec that is stored of a flag. -/
def specAt (s : ServerState) (client : Endpoint) (key : ObjectKey) :
    Option FeatureFlagSpec := ((s.kube client).flags.get? key).map (·.spec)

/-- The flag an accepted update is of. -/
def accepted? : ServerEvent → Option (Endpoint × ObjectKey)
  | ⟨.kube client (.updateFlag f), .ok _⟩ =>
      some (client, f.metadata.objectKey)
  | _ => none

theorem Harmless.accepted? {ev : ServerEvent} (h : Harmless ev) :
    Server.accepted? ev = none := by
  obtain ⟨c, r⟩ := ev
  cases c with
  | store | clusters | now | randRead | generateFromPassword => rfl
  | kube client c =>
      cases c with
      | updateFlag f =>
          cases r with
          | error err => rfl
          | ok stored => exact h.elim
      | _ => rfl

/-- The spec of a flag after a write of someone else. -/
def otherSpec (key : ObjectKey) (spec : Option FeatureFlagSpec) :
    OtherWrite → Option FeatureFlagSpec
  | .putFlag f => if f.metadata.objectKey = key then some f.spec else spec
  | .deleteFlag k => if k = key then none else spec
  | _ => spec

theorem spec_write (t : VTable FeatureFlag) (f : FeatureFlag)
    (key : ObjectKey) : ((t.write f).get? key).map (·.spec) =
      if f.metadata.objectKey = key then some f.spec
      else (t.get? key).map (·.spec) := by
  have hget := VTable.get?_write t f key
  split
  · next h => exact congrArg _ (hget.trans (if_pos h.symm))
  · next h => exact congrArg _ (hget.trans (if_neg (Ne.symm h)))

theorem spec_same {t : VTable FeatureFlag} {f : FeatureFlag}
    (h : t.get? f.metadata.objectKey = some f) (key : ObjectKey) :
    (t.get? key).map (·.spec) =
      if f.metadata.objectKey = key then some f.spec
      else (t.get? key).map (·.spec) := by
  split
  · next hkey => rw [← hkey, h]; rfl
  · rfl

theorem spec_writeFlag {s : Cluster} {old : FeatureFlag} (new : FeatureFlag)
    (key : ObjectKey) (hold : s.flags.get? new.metadata.objectKey = some old) :
    ((s.writeFlag old new).flags.get? key).map (·.spec) =
      if new.metadata.objectKey = key then some new.spec
      else (s.flags.get? key).map (·.spec) := by
  unfold Cluster.writeFlag
  split
  · next hsame =>
      rw [← hsame] at hold
      exact spec_same hold key
  · exact spec_write s.flags new key

theorem spec_apply (w : OtherWrite) (s : Cluster) (key : ObjectKey) :
    ((w.apply s).flags.get? key).map (·.spec) =
      otherSpec key ((s.flags.get? key).map (·.spec)) w := by
  cases w with
  | putFlag f =>
      simp only [OtherWrite.apply, otherSpec]
      split
      · exact spec_write s.flags (s.newFlag f) key
      · next old hold => exact spec_writeFlag (mergeFlag old f) key hold
  | putFlagStatus f =>
      simp only [OtherWrite.apply, otherSpec]
      split
      · rfl
      · next old hold =>
          have hkey : old.metadata.objectKey = f.metadata.objectKey :=
            VTable.key_of_get? hold
          rw [← hkey] at hold
          rw [spec_same hold key]
          exact spec_writeFlag (mergeFlagStatus old f) key hold
  | deleteFlag k =>
      have hget := VTable.get?_remove s.flags k key
      simp only [OtherWrite.apply, otherSpec]
      split
      · next hkey => exact congrArg _ (hget.trans (if_pos hkey.symm))
      · next hkey => exact congrArg _ (hget.trans (if_neg (Ne.symm hkey)))
  | putDeployment | deleteDeployment | putConfigMap | deleteConfigMap | tick =>
      rfl

/-- An accepted update of a snapshot found the snapshot stored. -/
theorem spec_update {s s' : Cluster} {f g stored : FeatureFlag}
    (h : KubeStep s ⟨.updateFlag f, .ok stored⟩ s') (hpast : g ∈ s.flags.past)
    (hmeta : f.metadata = g.metadata) :
    s.flags.get? g.metadata.objectKey = some g ∧
    ∀ key, (s'.flags.get? key).map (·.spec) =
      if g.metadata.objectKey = key then some f.spec.stored
      else (s.flags.get? key).map (·.spec) := by
  obtain ⟨old, hold, hv, hs⟩ := kubeStep_updateFlag h
  rw [hmeta] at hold hv
  have hsame : old = g := VTable.eq_of_version hpast hold hv
  subst hsame
  refine ⟨hold, fun key => ?_⟩
  rcases hs with ⟨hm, rfl⟩ | rfl
  · have hspec : (mergeSent old f).spec = old.spec := by rw [hm]
    have hf : f.spec.stored = old.spec := hspec
    rw [hf]
    exact spec_same hold key
  · rw [← hmeta]
    exact spec_write s.flags (mergeSent old f) key

section
variable [Bcrypt] [ClientGo]

theorem harmless_step {s s' : ServerState} {ev : ServerEvent}
    (h : ServerStep s ev s') (hev : Harmless ev) : s' = s := by
  obtain ⟨c, r⟩ := ev
  cases c with
  | store | now | randRead | generateFromPassword => exact hev.elim
  | clusters c =>
      cases c with
      | getClient id =>
          obtain ⟨fault, order, _, _, hs⟩ := h
          exact hs
      | _ => exact hev.elim
  | kube client c =>
      obtain ⟨k, hk, rfl⟩ := h
      cases c with
      | getFlag key =>
          obtain ⟨rfl, _⟩ := hk
          exact setKube_self s client
      | updateFlag f =>
          cases r with
          | ok stored => exact hev.elim
          | error err =>
              have hsame : k = s.kube client := KubeStep.of_error hk
              rw [hsame]
              exact setKube_self s client
      | _ => exact hev.elim

variable {ι : Type}

theorem remembers_serverStep {s s' : ServerState} {l : ServerLabel ι}
    (h : ServerSystem s l s') (client : Endpoint) :
    Remembers (s.kube client) (s'.kube client) := by
  cases l with
  | own i ev =>
      rcases kube_serverStep h client with hsame | ⟨c, r, _, hk⟩
      · rw [hsame]
        exact .refl _
      · rcases hk.cases with ⟨_, hsame⟩ | hk
        · rw [hsame]
          exact .refl _
        · exact remembers_of_kubeStep hk
  | other w =>
      have hs : s' = w.apply s := h
      subst hs
      cases w with
      | tick now => exact .refl _
      | kube client' w =>
          by_cases hclient : client = client'
          · subst hclient
            simp only [ServerMove.apply, kube_setKube_self]
            exact remembers_apply w _
          · simp only [ServerMove.apply, kube_setKube_ne s hclient]
            exact .refl _

theorem remembers_serverRun {s s' : ServerState} {ls : List (ServerLabel ι)}
    (h : Run ServerSystem s ls s') (client : Endpoint) :
    Remembers (s.kube client) (s'.kube client) := by
  induction h with
  | nil => exact .refl _
  | cons hstep _ ih => exact (remembers_serverStep hstep client).trans ih

/-- A flag that was read is a version the cluster remembers. -/
theorem getFlag_read {s s' : ServerState} {ls : List (ServerLabel ι)} {i : ι}
    {client : Endpoint} {key : ObjectKey} {flag : FeatureFlag}
    (hrun : Run ServerSystem s ls s')
    (he : Label.own i ⟨.kube client (.getFlag key), .ok flag⟩ ∈ ls) :
    flag ∈ (s'.kube client).flags.past ∧ flag.metadata.objectKey = key := by
  obtain ⟨pre, post, rfl⟩ := List.append_of_mem he
  obtain ⟨m, m', _, hstep, hpost⟩ := hrun.at_event
  obtain ⟨k, ⟨rfl, hread⟩, rfl⟩ := hstep
  obtain ⟨hpast, hkey⟩ := hread flag rfl
  rw [setKube_self] at hpost
  exact ⟨(remembers_serverRun hpost client).flags flag hpast, hkey⟩

/-! ## Commits -/

/-- What an event of a run does to the spec of a flag: an accepted update of a
request applies the request's change, a write of someone else replaces or
deletes, and nothing else does anything. -/
def commit (edits : ι → FlagEdit) (client : Endpoint) (key : ObjectKey)
    (spec : Option FeatureFlagSpec) : ServerLabel ι → Option FeatureFlagSpec
  | .own i ev =>
      if accepted? ev = some (client, key) then spec.map (edits i).change
      else spec
  | .other (.kube client' w) =>
      if client' = client then otherSpec key spec w else spec
  | .other (.tick _) => spec

variable [DecidableEq ι]

/-- A call of a request leaves the specs, or it is the accepted update of a flag
and what is stored then is the request's change of what was stored. -/
theorem own_step {edits : ι → FlagEdit} {s₀ s s' : ServerState}
    {pre post : List (ServerLabel ι)} {i : ι} {ev : ServerEvent}
    (hprogs : Interleaved (fun i => (edits i).prog) (pre ++ .own i ev :: post))
    (hrun : Run ServerSystem s₀ pre s) (hstep : ServerStep s ev s') :
    accepted? ev = none ∧
      (∀ client key, specAt s' client key = specAt s client key) ∨
    ∃ client key spec, accepted? ev = some (client, key) ∧
      specAt s client key = some spec ∧
      ∀ client' key', specAt s' client' key' =
        if client = client' ∧ key = key' then
          some ((edits i).change spec).stored
        else specAt s client' key' := by
  obtain ⟨q, hq⟩ := hprogs i
  rw [proj_append, proj_own_self] at hq
  rcases edit_event hq with hev | ⟨audit, done, rfl⟩ |
    ⟨client, flag, stored, hpre, rfl⟩
  · rw [harmless_step hstep hev]
    exact .inl ⟨hev.accepted?, fun _ _ => rfl⟩
  · obtain ⟨uuid, _, rfl⟩ := hstep
    exact .inl ⟨rfl, fun _ _ => rfl⟩
  · have hread : Label.own i ⟨.kube client (.getFlag (edits i).key),
        .ok flag⟩ ∈ pre := mem_proj.mp (by rw [hpre]; simp)
    obtain ⟨hpast, _⟩ := getFlag_read hrun hread
    have hmeta := metadata_edit (edits i) flag
    obtain ⟨k, hk, rfl⟩ := hstep
    obtain ⟨hstored, hspec⟩ := spec_update hk hpast hmeta
    refine .inr ⟨client, flag.metadata.objectKey, flag.spec, ?_, ?_, ?_⟩
    · rw [accepted?, hmeta]
    · rw [specAt, hstored]
      rfl
    · intro client' key'
      by_cases hclient : client = client'
      · subst hclient
        rw [specAt, kube_setKube_self, hspec, spec_edit]
        simp only [true_and]
        rfl
      · rw [specAt, kube_setKube_ne s (Ne.symm hclient),
          if_neg fun h => hclient h.1]
        rfl

/-- The step has on every flag the effect of its commit. -/
def Commits (edits : ι → FlagEdit) (s : ServerState) (l : ServerLabel ι)
    (s' : ServerState) : Prop :=
  ∀ client key,
    specAt s' client key = commit edits client key (specAt s client key) l

/-- What an accepted update writes back can be sent. -/
def sendsWhole (edits : ι → FlagEdit) (s : ServerState) :
    ServerLabel ι → Bool
  | .own i ev =>
      match accepted? ev with
      | none => true
      | some (client, key) => (specAt s client key).all (edits i).sendsWhole
  | .other _ => true

omit [DecidableEq ι] in
theorem commits_other {edits : ι → FlagEdit} {s s' : ServerState}
    {w : ServerMove} (hstep : ServerSystem s (.other w : ServerLabel ι) s') :
    Commits edits s (.other w) s' := by
  have hs : s' = w.apply s := hstep
  subst hs
  intro client key
  cases w with
  | tick now => rfl
  | kube client' w =>
      simp only [commit, specAt, ServerMove.apply]
      split
      · next hclient =>
          subst hclient
          rw [kube_setKube_self]
          exact spec_apply w _ key
      · next hclient => rw [kube_setKube_ne s (Ne.symm hclient)]

/-- A step has the effect of its commit exactly if what it writes back can be
sent. -/
theorem commits_iff {edits : ι → FlagEdit} {s₀ s s' : ServerState}
    {pre post : List (ServerLabel ι)} {l : ServerLabel ι}
    (hprogs : Interleaved (fun i => (edits i).prog) (pre ++ l :: post))
    (hrun : Run ServerSystem s₀ pre s) (hstep : ServerSystem s l s') :
    Commits edits s l s' ↔ sendsWhole edits s l = true := by
  cases l with
  | other w => exact iff_of_true (commits_other hstep) rfl
  | own i ev =>
      rcases own_step hprogs hrun hstep with ⟨hnone, hsame⟩ |
        ⟨client, key, spec, hacc, hspec, hafter⟩
      · refine iff_of_true (fun client key => ?_) ?_
        · rw [hsame, commit, if_neg (by simp [hnone])]
        · simp only [sendsWhole, hnone]
      · have hwhole : sendsWhole edits s (.own i ev) =
            (edits i).sendsWhole spec := by
          simp only [sendsWhole, hacc, hspec, Option.all_some]
        rw [hwhole, ← sendable_change,
          ← FeatureFlagSpec.stored_eq_self_iff]
        constructor
        · intro h
          have hself := h client key
          rw [hafter, if_pos ⟨rfl, rfl⟩, commit, if_pos hacc, hspec] at hself
          exact Option.some.inj hself
        · intro h client' key'
          rw [hafter, commit, hacc, h]
          by_cases heq : client = client' ∧ key = key'
          · obtain ⟨rfl, rfl⟩ := heq
            rw [if_pos ⟨rfl, rfl⟩, if_pos rfl, hspec]
            rfl
          · rw [if_neg heq, if_neg (by simpa using heq)]

/-- The steps that have the effect of their commit. -/
def CommitStep (edits : ι → FlagEdit) (s : ServerState) (l : ServerLabel ι)
    (s' : ServerState) : Prop := ServerSystem s l s' ∧ Commits edits s l s'

/-- The runs in which all that is written back can be sent. -/
abbrev WholeRun (edits : ι → FlagEdit) (s₀ : ServerState)
    (ls : List (ServerLabel ι)) (s : ServerState) : Prop :=
  Run (Restrict ServerSystem fun s l => sendsWhole edits s l = true) s₀ ls s

theorem commit_run_iff {edits : ι → FlagEdit} {s₀ s : ServerState}
    {ls : List (ServerLabel ι)}
    (hprogs : Interleaved (fun i => (edits i).prog) ls) :
    WholeRun edits s₀ ls s ↔ Run (CommitStep edits) s₀ ls s := by
  unfold WholeRun
  induction ls using List.reverseRecOn generalizing s with
  | nil => rw [run_nil, run_nil]
  | append_singleton ls l ih =>
      rw [run_snoc, run_snoc]
      constructor
      · rintro ⟨m, hm, hstep, hwhole⟩
        exact ⟨m, (ih hprogs.of_append).mp hm, hstep,
          (commits_iff hprogs hm.unrestrict hstep).mpr hwhole⟩
      · rintro ⟨m, hm, hstep, hcommits⟩
        have hm := (ih hprogs.of_append).mpr hm
        exact ⟨m, hm, hstep,
          (commits_iff hprogs hm.unrestrict hstep).mp hcommits⟩

omit [DecidableEq ι] in
/-- The specs of a run, replayed from the commits. -/
theorem commit_run {edits : ι → FlagEdit} {s₀ s : ServerState}
    {ls : List (ServerLabel ι)} (hrun : Run (CommitStep edits) s₀ ls s)
    (client : Endpoint) (key : ObjectKey) : specAt s client key =
      ls.foldl (commit edits client key) (specAt s₀ client key) := by
  refine Run.reverse_induction (P := fun ls s => specAt s client key =
    ls.foldl (commit edits client key) (specAt s₀ client key)) rfl ?_ hrun
  intro ls m l s' _ ih hstep
  rw [List.foldl_append, List.foldl_cons, List.foldl_nil, hstep.2, ih]

/-! ## Which requests committed -/

/-- The flags whose accepted updates are request `i`'s. -/
def updates (i : ι) (ls : List (ServerLabel ι)) :
    List (Endpoint × ObjectKey) := (proj i ls).filterMap accepted?

/-- The request that committed to a flag, if the event is such a commit. -/
def committer? (client : Endpoint) (key : ObjectKey) :
    ServerLabel ι → Option ι
  | .own i ev => if accepted? ev = some (client, key) then some i else none
  | .other _ => none

/-- The requests that committed to a flag, in the order of the commits. -/
def committers (client : Endpoint) (key : ObjectKey)
    (ls : List (ServerLabel ι)) : List ι := ls.filterMap (committer? client key)

omit [Bcrypt] [ClientGo] in
theorem count_committers (i : ι) (client : Endpoint) (key : ObjectKey)
    (ls : List (ServerLabel ι)) : (committers client key ls).count i =
      (updates i ls).count (client, key) := by
  induction ls with
  | nil => rfl
  | cons l ls ih =>
      cases l with
      | other w => exact ih
      | own j ev =>
          unfold committers updates at ih ⊢
          by_cases hj : j = i
          · subst hj
            rw [proj_own_self, List.filterMap_cons, List.filterMap_cons,
              committer?]
            cases accepted? ev with
            | none => exact ih
            | some target =>
                by_cases htarget : target = (client, key)
                · subst htarget
                  simpa using ih
                · simpa [htarget] using ih
          · rw [proj_own_ne hj, List.filterMap_cons, committer?]
            by_cases hacc : accepted? ev = some (client, key)
            · rw [if_pos hacc]
              simpa [hj] using ih
            · rw [if_neg hacc]
              exact ih

omit [Bcrypt] [ClientGo] [DecidableEq ι] in
theorem path_updates {e : FlagEdit} {tr : List ServerEvent}
    {q : ServerProg Response} (h : Prog.Path e.prog tr q) :
    (tr.filterMap accepted?).length ≤ 1 := by
  obtain ⟨tr', resp, hend⟩ := Prog.exists_path_ret ServerCall.reply_nonempty q
  have hfull : ((tr ++ tr').filterMap accepted?).length ≤ 1 := by
    rcases edit_path (h.append hend) with ⟨_, hall⟩ |
      ⟨_, client, flag, stored, audit, done, hlist⟩
    · rw [List.filterMap_eq_nil_iff.mpr fun ev hev => (hall ev hev).accepted?]
      exact Nat.zero_le 1
    · rw [hlist]
      exact Nat.le_refl 1
  rw [List.filterMap_append, List.length_append] at hfull
  omega

/-! ## Toggles -/

omit [Bcrypt] [ClientGo] [DecidableEq ι] in
/-- A run in which only toggles commit to a flag. -/
theorem foldl_commit_toggles {edits : ι → FlagEdit} {client : Endpoint}
    {key : ObjectKey} {ls : List (ServerLabel ι)}
    (htoggle : ∀ i ev, Label.own i ev ∈ ls → (edits i).kind = .toggle)
    (hother : ∀ w, Label.other (.kube client w) ∈ ls →
      ∀ spec, otherSpec key spec w = spec) (spec : FeatureFlagSpec) :
    ls.foldl (commit edits client key) (some spec) = some { spec with
      defaultValue := toggleText^[(committers client key ls).length]
        spec.defaultValue } := by
  induction ls generalizing spec with
  | nil => rfl
  | cons l ls ih =>
      have ih := ih (fun i ev h => htoggle i ev (.tail _ h))
        (fun w h => hother w (.tail _ h))
      rw [List.foldl_cons]
      cases l with
      | other w =>
          have hstay : commit edits client key (some spec) (.other w) =
              some spec := by
            cases w with
            | tick now => rfl
            | kube client' w =>
                simp only [commit]
                split
                · next hclient =>
                    subst hclient
                    exact hother w List.mem_cons_self _
                · rfl
          rw [hstay]
          exact ih spec
      | own i ev =>
          have hkind := htoggle i ev List.mem_cons_self
          simp only [commit, committers, List.filterMap_cons, committer?]
          split
          · have hchange : (edits i).change spec =
                { spec with defaultValue := toggleText spec.defaultValue } := by
              simp only [FlagEdit.change, hkind]
            rw [Option.map_some, hchange, ih]
            rfl
          · exact ih spec

/-! ## The result -/

/-- What a run of edits from `s₀` to `s` amounts to. -/
structure Serialized (edits : ι → FlagEdit) (s₀ : ServerState)
    (ls : List (ServerLabel ι)) (s : ServerState) : Prop where
  /-- Every spec is the first one with the commits applied in their order. -/
  replayed : ∀ client key, specAt s client key =
    ls.foldl (commit edits client key) (specAt s₀ client key)
  /-- A request commits once at most, -/
  once : ∀ i, (updates i ls).length ≤ 1
  /-- exactly once and to its own flag if it is answered with 200, -/
  ok : ∀ i resp, Answered (fun i => (edits i).prog) i ls resp →
    resp.status = 200 → ∃ client,
      Label.own i ⟨.clusters (.getClient (edits i).clusterID), .ok client⟩ ∈ ls ∧
      updates i ls = [(client, (edits i).key)]
  /-- and never if it is not: then none of its calls changed anything. -/
  refused : ∀ i resp, Answered (fun i => (edits i).prog) i ls resp →
    resp.status ≠ 200 → updates i ls = [] ∧
      ∀ pre ev post m m', ls = pre ++ .own i ev :: post →
        Run ServerSystem s₀ pre m → ServerStep m ev m' → m' = m
  /-- With toggles of one flag only, all of them answered, and others that leave
  its spec alone, the value is the first one toggled once for each 200. -/
  toggles : ∀ client key (served : Finset ι) (resp : ι → Response) spec,
    (∀ i ∈ served, (edits i).kind = .toggle ∧ (edits i).key = key ∧
      Answered (fun i => (edits i).prog) i ls (resp i)) →
    (∀ i ev, Label.own i ev ∈ ls → i ∈ served) →
    (∀ i id client', Label.own i ⟨.clusters (.getClient id), .ok client'⟩ ∈ ls →
      client' = client) →
    (∀ w, Label.other (.kube client w) ∈ ls →
      ∀ spec, otherSpec key spec w = spec) →
    specAt s₀ client key = some spec →
    specAt s client key = some { spec with
      defaultValue := toggleText^[
        (served.filter fun i => (resp i).status = 200).card]
        spec.defaultValue }

variable {edits : ι → FlagEdit} {s₀ s : ServerState}
  {ls : List (ServerLabel ι)}

theorem updates_ok (hrun : Run ServerSystem s₀ ls s) {i : ι} {resp : Response}
    (hans : Answered (fun i => (edits i).prog) i ls resp)
    (hstatus : resp.status = 200) : ∃ client,
      Label.own i ⟨.clusters (.getClient (edits i).clusterID), .ok client⟩ ∈ ls ∧
      updates i ls = [(client, (edits i).key)] := by
  rcases edit_path hans with ⟨hno, _⟩ |
    ⟨_, client, flag, stored, audit, done, hlist⟩
  · exact absurd hstatus hno
  · have hread : Label.own i ⟨.kube client (.getFlag (edits i).key),
        .ok flag⟩ ∈ ls := mem_proj.mp (by rw [hlist]; simp)
    obtain ⟨_, hkey⟩ := getFlag_read hrun hread
    refine ⟨client, mem_proj.mp (by rw [hlist]; simp), ?_⟩
    have hedit : ((edits i).edit flag).metadata.objectKey = (edits i).key := by
      rw [metadata_edit, hkey]
    rw [updates, hlist, ← hedit]
    rfl

omit [Bcrypt] [ClientGo] in
theorem harmless_of_refused {i : ι} {resp : Response}
    (hans : Answered (fun i => (edits i).prog) i ls resp)
    (hstatus : resp.status ≠ 200) : ∀ ev ∈ proj i ls, Harmless ev := by
  rcases edit_path hans with ⟨_, hall⟩ | ⟨hok, _⟩
  · exact hall
  · exact absurd hok hstatus

theorem committers_card (hprogs : Interleaved (fun i => (edits i).prog) ls)
    (hrun : Run ServerSystem s₀ ls s) {client : Endpoint} {key : ObjectKey}
    {served : Finset ι} {resp : ι → Response}
    (hans : ∀ i ∈ served, (edits i).key = key ∧
      Answered (fun i => (edits i).prog) i ls (resp i))
    (hserved : ∀ i ev, Label.own i ev ∈ ls → i ∈ served)
    (hclient : ∀ i id client',
      Label.own i ⟨.clusters (.getClient id), .ok client'⟩ ∈ ls →
        client' = client) :
    (committers client key ls).length =
      (served.filter fun i => (resp i).status = 200).card := by
  have hnodup : (committers client key ls).Nodup := by
    rw [List.nodup_iff_count_le_one]
    intro i
    obtain ⟨q, hq⟩ := hprogs i
    rw [count_committers]
    exact List.count_le_length.trans (path_updates hq)
  have hmem : ∀ i, i ∈ committers client key ls ↔
      i ∈ served ∧ (resp i).status = 200 := by
    intro i
    rw [← List.count_pos_iff, count_committers, List.count_pos_iff]
    constructor
    · intro h
      obtain ⟨ev, hev, hacc⟩ := List.mem_filterMap.mp h
      have hi := hserved i ev (mem_proj.mp hev)
      refine ⟨hi, ?_⟩
      by_contra hstatus
      have hharm := harmless_of_refused (hans i hi).2 hstatus ev hev
      rw [hharm.accepted?] at hacc
      cases hacc
    · rintro ⟨hi, hstatus⟩
      obtain ⟨client', hget, hupd⟩ := updates_ok hrun (hans i hi).2 hstatus
      rw [hupd, hclient i _ client' hget, (hans i hi).1]
      exact List.mem_singleton_self _
  rw [← List.toFinset_card_of_nodup hnodup]
  congr 1
  ext i
  rw [List.mem_toFinset, Finset.mem_filter, hmem]

/-- Edits of flags are serializable, in the order of their commits, in every run
in which all that is written back can be sent; these are the runs in which every
step has the effect of its commit. -/
theorem flag_edits_serializable_iff (edits : ι → FlagEdit)
    {s₀ s : ServerState} {ls : List (ServerLabel ι)}
    (hprogs : Interleaved (fun i => (edits i).prog) ls) :
    (WholeRun edits s₀ ls s ↔ Run (CommitStep edits) s₀ ls s) ∧
    (WholeRun edits s₀ ls s → Serialized edits s₀ ls s) := by
  refine ⟨commit_run_iff hprogs, fun hwhole => ?_⟩
  have hrun := hwhole.unrestrict
  have hcommits := (commit_run_iff hprogs).mp hwhole
  refine
    { replayed := commit_run hcommits
      once := fun i => ?_
      ok := fun _ _ hans hstatus => updates_ok hrun hans hstatus
      refused := ?_
      toggles := ?_ }
  · obtain ⟨q, hq⟩ := hprogs i
    exact path_updates hq
  · intro i resp hans hstatus
    have hall := harmless_of_refused hans hstatus
    refine ⟨List.filterMap_eq_nil_iff.mpr fun ev hev =>
      (hall ev hev).accepted?, ?_⟩
    rintro pre ev post m m' rfl _ hstep
    exact harmless_step hstep (hall ev (mem_proj.mpr (by simp)))
  · intro client key served resp spec hans hserved hclient hother hspec
    have hcard := committers_card hprogs hrun
      (fun i hi => (hans i hi).2) hserved hclient
    rw [commit_run hcommits, hspec, ← hcard]
    exact foldl_commit_toggles
      (fun i ev h => (hans i (hserved i ev h)).1) hother spec

end

/-! Two toggles that both read before either writes: the second is refused. -/

def toggledFlag : FeatureFlag where
  metadata := { name := "dark-mode", ns := "default" }
  spec := { type := .boolean, defaultValue := "true" }

def toggledServer : ServerState where
  store := .new
  clusters := ⟨GoMap.single "prod" {
    info := { id := "prod", displayName := "Production", apiServer := "prod" }
    config := { host := "prod" }
    client := "prod" }⟩
  kube _ := { flags := VTable.empty.write toggledFlag }
  now := 0

def twoToggles (_ : Bool) : FlagEdit where
  kind := .toggle
  request :=
    { method := "POST"
      url := ⟨"", "", rfl⟩
      query := fun name => if name = "clusterId" then "prod" else "" }
  pathValue name := if name = "namespace" then "default" else "dark-mode"

def togglesRun :
    List (ServerLabel Bool) × (Bool → ServerProg Response) × ServerState :=
  letI := plainBcrypt
  letI := anyHost
  schedule ServerCall.serve
    ([false, true, false, true, false, true, false].map (·, {}))
    (fun i => (twoToggles i).prog) toggledServer

theorem flag_edits_serializable_iff_sample :
    letI := plainBcrypt
    letI := anyHost
    Serialized twoToggles toggledServer togglesRun.1 togglesRun.2.2 := by
  let := plainBcrypt
  let := anyHost
  refine (flag_edits_serializable_iff twoToggles (schedule_interleaved rfl)).2
    (schedule_run_restrict (fun _ _ _ _ _ => serve_step) ?_ rfl)
  decide +kernel

example : committers "prod" ⟨"default", "dark-mode"⟩ togglesRun.1 = [false] ∧
    (specAt togglesRun.2.2 "prod" ⟨"default", "dark-mode"⟩).map
      (·.defaultValue) = some "false" := by decide

/-! A flag whose sidecar has the port 0, and a toggle of it. -/

def portFlag : FeatureFlag :=
  { toggledFlag with
    spec.delivery := some { sidecar := some { selector := some {} } } }

def portServer : ServerState :=
  { toggledServer with
    kube := fun _ => { flags := VTable.empty.write portFlag } }

def portRun :
    List (ServerLabel Bool) × (Bool → ServerProg Response) × ServerState :=
  letI := plainBcrypt
  letI := anyHost
  schedule ServerCall.serve (List.replicate 4 (false, {}))
    (fun i => (twoToggles i).prog) portServer

/-- The toggle is accepted, and the flag has another port. -/
theorem toggle_moves_port :
    letI := plainBcrypt
    letI := anyHost
    Interleaved (fun i => (twoToggles i).prog) portRun.1 ∧
      Run ServerSystem portServer portRun.1 portRun.2.2 ∧
      committers "prod" ⟨"default", "dark-mode"⟩ portRun.1 = [false] ∧
      (specAt portRun.2.2 "prod" ⟨"default", "dark-mode"⟩).bind
          (·.delivery) =
        some { sidecar := some { port := 8514, selector := some {} } } ∧
      ¬ Serialized twoToggles portServer portRun.1 portRun.2.2 := by
  let := plainBcrypt
  let := anyHost
  refine ⟨schedule_interleaved rfl,
    schedule_run (fun _ _ _ _ _ => serve_step) rfl, by decide +kernel,
    by decide +kernel, fun h => ?_⟩
  have hreplayed := h.replayed "prod" ⟨"default", "dark-mode"⟩
  revert hreplayed
  decide +kernel

end Vexil.Server
