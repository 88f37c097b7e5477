import Vexil.Proofs.NameCodec
import Vexil.Sdk.Listing

/-!
# The list and the single flag of the Go SDK

Each provider has two functions that read the same place. They agree on a name
exactly where the list takes no other way to it than the single call: in the
environment when what decodes to the name is the variable the name is encoded
to, and no two variables decode alike; in a directory when no file of that name
is hidden from the list. A JSON file is read alike by both.

The direction that needs an argument is that agreement forces this. A variable
that decodes to a name is listed under it, so that the single call finds the
name's own variable, which decodes to the name as well; two variables under one
name would be listed twice.
-/

namespace Vexil.Sdk

open Vexil.Lib Vexil.Kube

/-- What a list call gives; an error has no flags in it. -/
def flagsOf (all : Except String (List Flag)) : List Flag :=
  all.toOption.getD []

/-- A list call and the single call for `n` agree. -/
structure Agree (all : Except String (List Flag)) (one : Provider)
    (n : String) : Prop where
  listed : (∃ f ∈ flagsOf all, f.name = n) ↔ ∃ f, one n = .ok f
  same : ∀ f ∈ flagsOf all, f.name = n → one n = .ok f
  once : ((flagsOf all).map Flag.name).Nodup

/-- The two agree on `n` if they give the same flags under it. -/
theorem agree_of_mem_iff {all : Except String (List Flag)} {one : Provider}
    {n : String} (hname : ∀ f, one n = .ok f → f.name = n)
    (hmem : ∀ f, f.name = n → (f ∈ flagsOf all ↔ one n = .ok f))
    (honce : ((flagsOf all).map Flag.name).Nodup) : Agree all one n where
  listed := by
    refine ⟨fun h => ?_, fun h => ?_⟩
    · obtain ⟨f, hf, hn⟩ := h
      exact ⟨f, (hmem f hn).mp hf⟩
    · obtain ⟨f, hf⟩ := h
      exact ⟨f, (hmem f (hname f hf)).mpr hf, hname f hf⟩
  same f hf hn := (hmem f hn).mp hf
  once := honce

/-- With an error they agree if the single call has one, too. -/
theorem agree_error {err : String} {one : Provider} {n : String}
    (h : ∀ f, one n ≠ .ok f) : Agree (.error err) one n :=
  agree_of_mem_iff (fun f hf => absurd hf (h f))
    (fun f _ => iff_of_false List.not_mem_nil (h f)) List.nodup_nil

/-! ## The environment -/

section
variable {other : Char → Char} {env : Environment} {ks : List String}
  {n : String}

/-- The name in a variable's name, as the list has it. -/
def nameBy (other : Char → Char) (key : String) : String :=
  toLowerBy other (replaceAll (trimPrefix key "FLAG_") '_' '-')

/-- The letters of a name are ASCII, so `ToLower` is not left open on them. -/
theorem nameBy_flagNameToEnvVar (h : ObjectName n) :
    nameBy other (flagNameToEnvVar n) = n := by
  have hascii : nameChars.map (fun c =>
      decide ((if varChar c = '_' then '-' else varChar c).toNat < 128)) =
        nameChars.map fun _ => true := by decide
  have hchar : ∀ c ∈ n.toList,
      (if (if varChar c = '_' then '-' else varChar c).toNat < 128 then
        (if varChar c = '_' then '-' else varChar c).toLower
      else other (if varChar c = '_' then '-' else varChar c)) = c := by
    intro c hc
    have hname := nameChar_of_mem h hc
    have hlow := NameChar.eq_of_map hascii hname
    rw [if_pos (of_decide_eq_true hlow)]
    exact unvarChar_varChar hname
  rw [nameBy, trimPrefix, if_pos (hasPrefix_flagNameToEnvVar n), replaceAll,
    toLowerBy, toList_flagNameToEnvVar, List.drop_left]
  simp only [String.toList_ofList, List.map_map]
  refine ofList_map_of_id fun c hc => ?_
  rw [Function.comp_apply, Function.comp_apply]
  exact hchar c hc

theorem envGetAllFlagsBy_eq_listed (hks : env.vars.Ranges ks) :
    envGetAllFlagsBy other (env.environ ks) =
      listed (nameBy other) env ks := by
  rw [envGetAllFlagsBy, Environment.environ, Environment.entries, listed,
    List.map_map, List.filterMap_map]
  refine List.filterMap_congr fun k hk => ?_
  have hsplit := splitN2_environ (v := env.vars.index k)
    (env.noEquals k ((hks.2 k).mp hk))
  simp only [Function.comp_apply, hsplit, nameBy, envFlag]

/-- A variable of the environment that is one of a flag. -/
def IsFlagVar (env : Environment) (k : String) : Prop :=
  k ∈ env.vars ∧ hasPrefix k "FLAG_" = true

theorem isFlagVar_of_lookup {v : String}
    (h : env.vars.lookup (flagNameToEnvVar n) = some v) :
    IsFlagVar env (flagNameToEnvVar n) :=
  ⟨Finmap.mem_of_lookup_eq_some h, hasPrefix_flagNameToEnvVar n⟩

theorem envProvider_eq_ok_iff {f : Flag} :
    envProvider env.vars n = .ok f ↔
      ∃ v, env.vars.lookup (flagNameToEnvVar n) = some v ∧ f = envFlag n v := by
  rw [envProvider]
  cases env.vars.lookup (flagNameToEnvVar n) with
  | none => simp
  | some v => simp [envFlag, eq_comm]

theorem mem_listed_iff {decode : String → String} (hks : env.vars.Ranges ks)
    {f : Flag} :
    f ∈ listed decode env ks ↔
      ∃ k, IsFlagVar env k ∧ f = envFlag (decode k) (env.vars.index k) := by
  rw [listed, List.mem_filterMap]
  refine ⟨fun h => ?_, fun h => ?_⟩
  · obtain ⟨k, hk, hf⟩ := h
    split at hf
    · next hpre =>
        exact ⟨k, ⟨(hks.2 k).mp hk, hpre⟩, (Option.some.inj hf).symm⟩
    · cases hf
  · obtain ⟨k, ⟨hk, hpre⟩, rfl⟩ := h
    exact ⟨k, (hks.2 k).mpr hk, if_pos hpre⟩

/-- No name is listed twice exactly if no two variables have one name. -/
theorem nodup_listed_iff {decode : String → String}
    (hks : env.vars.Ranges ks) :
    ((listed decode env ks).map Flag.name).Nodup ↔
      ∀ k k', IsFlagVar env k → IsFlagVar env k' → decode k = decode k' →
        k = k' := by
  have hnames : (listed decode env ks).map Flag.name =
      (ks.filter fun k => hasPrefix k "FLAG_").map decode := by
    rw [listed, List.map_filterMap, ← List.filterMap_eq_map,
      List.filterMap_filter]
    refine List.filterMap_congr fun k _ => ?_
    by_cases hpre : hasPrefix k "FLAG_" = true
    · rw [if_pos hpre, if_pos hpre]
      rfl
    · rw [if_neg hpre, if_neg hpre]
      rfl
  have hmem : ∀ k, k ∈ ks.filter (fun k => hasPrefix k "FLAG_") ↔
      IsFlagVar env k := by
    intro k
    rw [List.mem_filter, hks.2, IsFlagVar]
  rw [hnames, List.nodup_map_iff_inj_on (hks.1.filter _)]
  simp only [hmem]
  exact ⟨fun h k k' hk hk' => h k hk k' hk', fun h k hk k' hk' => h k k' hk hk'⟩

/-- Nothing else than the variable of `n` decodes to `n`, and no two variables
of the environment decode alike. -/
structure Unambiguous (decode : String → String) (env : Environment)
    (n : String) : Prop where
  own : ∀ k, IsFlagVar env k → decode k = n → k = flagNameToEnvVar n
  apart : ∀ k k', IsFlagVar env k → IsFlagVar env k' → decode k = decode k' →
    k = k'

theorem agree_env_iff {decode : String → String}
    (hdecode : decode (flagNameToEnvVar n) = n) (hks : env.vars.Ranges ks) :
    Agree (.ok (listed decode env ks)) (envProvider env.vars) n ↔
      Unambiguous decode env n := by
  refine ⟨fun h => ?_, fun h => ?_⟩
  · have hapart := (nodup_listed_iff hks).mp h.once
    refine ⟨fun k hk hn => ?_, hapart⟩
    have hlisted : envFlag (decode k) (env.vars.index k) ∈
        listed decode env ks := (mem_listed_iff hks).mpr ⟨k, hk, rfl⟩
    obtain ⟨f, hf⟩ := h.listed.mp ⟨_, hlisted, hn⟩
    obtain ⟨v, hv, _⟩ := envProvider_eq_ok_iff.mp hf
    exact hapart k _ hk (isFlagVar_of_lookup hv) (hn.trans hdecode.symm)
  · refine agree_of_mem_iff (fun f hf => ?_) (fun f hn => ?_)
      ((nodup_listed_iff hks).mpr h.apart)
    · obtain ⟨v, _, rfl⟩ := envProvider_eq_ok_iff.mp hf
      rfl
    · show f ∈ listed decode env ks ↔ _
      rw [mem_listed_iff hks, envProvider_eq_ok_iff]
      refine ⟨fun hlisted => ?_, fun hfound => ?_⟩
      · obtain ⟨k, hk, rfl⟩ := hlisted
        obtain rfl := h.own k hk hn
        obtain ⟨v, hv⟩ := Finmap.mem_iff.mp hk.1
        refine ⟨v, hv, ?_⟩
        rw [hdecode, GoMap.index_of_lookup hv]
      · obtain ⟨v, hv, rfl⟩ := hfound
        refine ⟨_, isFlagVar_of_lookup hv, ?_⟩
        rw [hdecode, GoMap.index_of_lookup hv]

/-- The variables that the operator sets are of this kind. -/
theorem unambiguous_of_encoded
    (h : ∀ k, IsFlagVar env k → ∃ m, ObjectName m ∧ k = flagNameToEnvVar m) :
    Unambiguous (nameBy other) env n where
  own k hk hname := by
    obtain ⟨m, hm, rfl⟩ := h k hk
    rw [nameBy_flagNameToEnvVar hm] at hname
    rw [hname]
  apart k k' hk hk' hname := by
    obtain ⟨m, hm, rfl⟩ := h k hk
    obtain ⟨m', hm', rfl⟩ := h k' hk'
    rw [nameBy_flagNameToEnvVar hm, nameBy_flagNameToEnvVar hm'] at hname
    rw [hname]

end

/-! ## A mounted ConfigMap -/

section
variable {order : GoMap String → List String} {mount : Mount} {n : String}

/-- A list call shows a file of this name, if there is one to show. -/
def Shows (mount : Mount) (n : String) : Prop :=
  match mount with
  | .dir entries readDirError =>
      ∀ data, entries.lookup n = some (.file (some data)) →
        readDirError = none ∧ hasPrefix n "." = false
  | .missing => True
  | .file _ => True

theorem mountGetFlag_dir_eq_ok_iff {entries : GoMap DirEntry}
    {readDirError : Option String} {f : Flag} :
    mountGetFlag (.dir entries readDirError) n = .ok f ↔
      ∃ data, entries.lookup n = some (.file (some data)) ∧
        f = fileFlag n data := by
  have hread : ∀ data, (entries.lookup n).bind DirEntry.readFile = some data ↔
      entries.lookup n = some (.file (some data)) := by
    intro data
    cases entries.lookup n with
    | none => simp
    | some e =>
        cases e with
        | dir => simp [DirEntry.readFile]
        | file d => simp [DirEntry.readFile]
  simp only [mountGetFlag, ← hread]
  cases (entries.lookup n).bind DirEntry.readFile with
  | none => simp
  | some data => simp [eq_comm]

theorem entryFlag_eq_some_iff {entries : GoMap DirEntry} {name : String}
    {f : Flag} :
    entryFlag entries name = some f ↔
      ∃ data, entries.lookup name = some (.file (some data)) ∧
        hasPrefix name "." = false ∧ f = fileFlag name data := by
  rw [entryFlag]
  cases entries.lookup name with
  | none => simp
  | some e =>
      cases e with
      | dir => simp [DirEntry.isDir]
      | file data =>
          cases data with
          | none => simp [DirEntry.isDir, DirEntry.readFile]
          | some data =>
              cases hasPrefix name "." with
              | true => simp [DirEntry.isDir]
              | false => simp [DirEntry.isDir, DirEntry.readFile, eq_comm]

theorem entryFlag_name {entries : GoMap DirEntry} {name : String} {f : Flag}
    (h : entryFlag entries name = some f) : f.name = name := by
  obtain ⟨data, _, _, rfl⟩ := entryFlag_eq_some_iff.mp h
  rfl

/-- The flags of a directory, each under its own name. -/
theorem mem_flagsOf_dir {entries : GoMap DirEntry} {f : Flag} :
    f ∈ flagsOf (mountGetAllFlags order (.dir entries)) ↔
      entryFlag entries f.name = some f := by
  show f ∈ entries.sortedKeys.filterMap (entryFlag entries) ↔ _
  rw [List.mem_filterMap]
  refine ⟨fun h => ?_, fun hf => ?_⟩
  · obtain ⟨name, _, hf⟩ := h
    rwa [entryFlag_name hf]
  · obtain ⟨data, hdata, _⟩ := entryFlag_eq_some_iff.mp hf
    exact ⟨f.name, (entries.ranges_sortedKeys.2 _).mpr
      (Finmap.mem_of_lookup_eq_some hdata), hf⟩

theorem nodup_flagsOf_dir {entries : GoMap DirEntry} :
    ((flagsOf (mountGetAllFlags order (.dir entries))).map
      Flag.name).Nodup := by
  show ((entries.sortedKeys.filterMap (entryFlag entries)).map
    Flag.name).Nodup
  rw [List.Nodup, List.pairwise_map, List.pairwise_filterMap]
  refine entries.ranges_sortedKeys.1.imp fun {k k'} hne f hf f' hf' => ?_
  rw [entryFlag_name hf, entryFlag_name hf']
  exact hne

theorem agree_dir_iff {entries : GoMap DirEntry}
    {readDirError : Option String} :
    Agree (mountGetAllFlags order (.dir entries readDirError))
        (mountGetFlag (.dir entries readDirError)) n ↔
      Shows (.dir entries readDirError) n := by
  refine ⟨fun h data hdata => ?_, fun h => ?_⟩
  · have hfound : mountGetFlag (.dir entries readDirError) n =
        .ok (fileFlag n data) :=
      mountGetFlag_dir_eq_ok_iff.mpr ⟨data, hdata, rfl⟩
    obtain ⟨f, hf, hn⟩ := h.listed.mpr ⟨_, hfound⟩
    cases readDirError with
    | some err => exact absurd hf List.not_mem_nil
    | none =>
        rw [mem_flagsOf_dir, hn] at hf
        obtain ⟨_, _, hshown, _⟩ := entryFlag_eq_some_iff.mp hf
        exact ⟨rfl, hshown⟩
  · cases readDirError with
    | some err =>
        refine agree_error fun f hf => ?_
        obtain ⟨data, hdata, _⟩ := mountGetFlag_dir_eq_ok_iff.mp hf
        exact absurd (h data hdata).1 (Option.some_ne_none err)
    | none =>
        refine agree_of_mem_iff (fun f hf => ?_) (fun f hn => ?_)
          nodup_flagsOf_dir
        · obtain ⟨data, _, rfl⟩ := mountGetFlag_dir_eq_ok_iff.mp hf
          rfl
        · rw [mem_flagsOf_dir, hn, entryFlag_eq_some_iff,
            mountGetFlag_dir_eq_ok_iff]
          refine exists_congr fun data => and_congr_right fun hdata => ?_
          exact and_iff_right (h data hdata).2

theorem agree_file (horder : ∀ m : GoMap String, m.Ranges (order m))
    (parsed : Except String (GoMap String)) :
    Agree (mountGetAllFlags order (.file parsed)) (mountGetFlag (.file parsed))
      n := by
  cases parsed with
  | error err =>
      refine agree_error fun f hf => ?_
      cases hf
  | ok flags =>
      have hone : ∀ f, mountGetFlag (.file (.ok flags)) n = .ok f ↔
          ∃ v, flags.lookup n = some v ∧ f = envFlag n v := by
        intro f
        simp only [mountGetFlag]
        cases flags.lookup n with
        | none => simp
        | some v => simp [envFlag, eq_comm]
      refine agree_of_mem_iff (fun f hf => ?_) (fun f hn => ?_) ?_
      · obtain ⟨v, _, rfl⟩ := (hone f).mp hf
        rfl
      · show f ∈ (order flags).map (fun name =>
          envFlag name (flags.index name)) ↔ _
        rw [hone, List.mem_map]
        refine ⟨fun hlisted => ?_, fun hfound => ?_⟩
        · obtain ⟨name, hname, rfl⟩ := hlisted
          obtain rfl : name = n := hn
          obtain ⟨v, hv⟩ :=
            Finmap.mem_iff.mp (((horder flags).2 name).mp hname)
          refine ⟨v, hv, ?_⟩
          rw [GoMap.index_of_lookup hv]
        · obtain ⟨v, hv, rfl⟩ := hfound
          refine ⟨n, ((horder flags).2 n).mpr
            (Finmap.mem_of_lookup_eq_some hv), ?_⟩
          rw [GoMap.index_of_lookup hv]
      · show (((order flags).map _).map Flag.name).Nodup
        rw [List.map_map]
        exact (horder flags).1.map fun _ _ h => h

theorem agree_mount_iff (horder : ∀ m : GoMap String, m.Ranges (order m)) :
    Agree (mountGetAllFlags order mount) (mountGetFlag mount) n ↔
      Shows mount n := by
  cases mount with
  | missing =>
      refine iff_of_true (agree_error fun f hf => ?_) trivial
      cases hf
  | dir entries readDirError => exact agree_dir_iff
  | file parsed => exact iff_of_true (agree_file horder parsed) trivial

end

/-! ## Both providers -/

/-- The list and the single call agree on a name exactly if, in the environment,
nothing but the name's own variable decodes to it and no two variables decode
alike, and if, at a path, the list does not leave out a file of that name. -/
theorem list_and_lookup (other : Char → Char)
    (order : GoMap String → List String)
    (horder : ∀ m : GoMap String, m.Ranges (order m)) :
    (∀ (env : Environment) (ks : List String) (n : String),
      ObjectName n → env.vars.Ranges ks →
      (Agree (.ok (envGetAllFlagsBy other (env.environ ks)))
          (envProvider env.vars) n ↔
        Unambiguous (nameBy other) env n)) ∧
    ∀ (mount : Mount) (n : String), ConfigMapKey n →
      (Agree (mountGetAllFlags order mount) (mountGetFlag mount) n ↔
        Shows mount n) := by
  refine ⟨fun env ks n hn hks => ?_, fun mount n _ => agree_mount_iff horder⟩
  rw [envGetAllFlagsBy_eq_listed hks]
  exact agree_env_iff (nameBy_flagNameToEnvVar hn) hks

theorem darkModeEnv_encoded : ∀ k, IsFlagVar darkModeEnv k →
    ∃ m, ObjectName m ∧ k = flagNameToEnvVar m := by
  intro k h
  obtain ⟨hk, hpre⟩ := h
  obtain ⟨v, hv⟩ := Finmap.mem_iff.mp hk
  obtain ⟨n, hn, rfl⟩ := (darkModeEnv_carries k v hpre).mp hv
  rw [GoMap.lookup_single] at hn
  split at hn
  · next h => exact ⟨n, by rw [h]; decide, rfl⟩
  · cases hn

/-- A volume with one key. -/
def darkModeMount : Mount :=
  .dir ((GoMap.single "..data" .dir).insert "dark-mode" (.file (some "true\n")))

theorem list_and_lookup_sample :
    Agree (.ok (envGetAllFlagsBy id (darkModeEnv.environ
        darkModeEnv.vars.sortedKeys))) (envProvider darkModeEnv.vars)
      "dark-mode" ∧
    Agree (mountGetAllFlags GoMap.sortedKeys darkModeMount)
      (mountGetFlag darkModeMount) "dark-mode" := by
  obtain ⟨henv, hmount⟩ :=
    list_and_lookup id GoMap.sortedKeys GoMap.ranges_sortedKeys
  refine ⟨(henv darkModeEnv _ "dark-mode" (by decide)
    darkModeEnv.vars.ranges_sortedKeys).mpr
      (unambiguous_of_encoded darkModeEnv_encoded), ?_⟩
  exact (hmount darkModeMount "dark-mode" (by decide)).mpr
    fun data _ => ⟨rfl, by decide⟩

/-- A process with a variable in lower case. -/
def lowerCaseEnv : Environment where
  vars := GoMap.single "FLAG_dark_mode" "true"
  noEquals := by decide

/-- A volume with a key that begins with a dot. -/
def dotKeyMount : Mount := .dir (GoMap.single ".beta" (.file (some "true")))

/-- What the list shows is not found, and what is found is not listed. -/
theorem list_and_lookup_apart :
    ¬ (∀ (env : Environment) (ks : List String) (n : String),
      ObjectName n → env.vars.Ranges ks →
      Agree (.ok (envGetAllFlagsBy id (env.environ ks)))
        (envProvider env.vars) n) ∧
    ¬ ∀ (mount : Mount) (n : String), ConfigMapKey n →
      Agree (mountGetAllFlags GoMap.sortedKeys mount) (mountGetFlag mount)
        n := by
  refine ⟨fun hall => ?_, fun hall => ?_⟩
  · have hname : ObjectName "dark-mode" := by decide
    have hagree := hall lowerCaseEnv _ "dark-mode" hname
      lowerCaseEnv.vars.ranges_sortedKeys
    rw [envGetAllFlagsBy_eq_listed lowerCaseEnv.vars.ranges_sortedKeys,
      agree_env_iff (nameBy_flagNameToEnvVar hname)
        lowerCaseEnv.vars.ranges_sortedKeys] at hagree
    have hown := hagree.own "FLAG_dark_mode" ⟨by decide, by decide⟩ (by decide)
    exact absurd hown (by decide)
  · have hshows := agree_dir_iff.mp (hall dotKeyMount ".beta" (by decide))
    exact absurd (hshows "true" (by decide)).2 (by decide)

end Vexil.Sdk
