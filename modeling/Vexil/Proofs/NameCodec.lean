import Vexil.Operator.Reconcile
import Vexil.Sdk.Cache
import Vexil.Sdk.Node
import Vexil.Sdk.Python

/-!
# Flag names and variable names

The operator and three SDKs turn a flag's name into a variable's, and the SDKs
turn it back when they list all flags. They upper-case and replace in different
orders, which comes to the same because neither step makes a character the other
one looks for. The way back would lose an upper case letter and a `_`, and the
name of an object has neither: on such names `flagName` undoes the encoding, so
that distinct flags have distinct variables and a list over the environment
shows every flag once.

How an SDK goes through the environment differs as well; all three come to
`listed`, of which the list's properties are proved.
-/

namespace Vexil.Sdk

open Vexil.Lib Vexil.Kube Vexil.Operator

/-! ## One character -/

/-- The characters of a name that an object can have. -/
def NameChar (c : Char) : Prop := c.isLower ∨ c.isDigit ∨ c = '-' ∨ c = '.'

def nameChars : List Char := "abcdefghijklmnopqrstuvwxyz0123456789-.".toList

theorem mem_nameChars : ∀ n < 123, (97 ≤ n ∨ (48 ≤ n ∧ n ≤ 57) ∨
    n = 45 ∨ n = 46) → Char.ofNat n ∈ nameChars := by decide

theorem NameChar.mem {c : Char} (h : NameChar c) : c ∈ nameChars := by
  have hrange : c.toNat < 123 ∧ (97 ≤ c.toNat ∨
      (48 ≤ c.toNat ∧ c.toNat ≤ 57) ∨ c.toNat = 45 ∨ c.toNat = 46) := by
    obtain h | h | rfl | rfl := h
    · have hbounds : 97 ≤ c.toNat ∧ c.toNat ≤ 122 := by
        have hlower : ('a'.val ≤ c.val && c.val ≤ 'z'.val) = true := h
        simpa [UInt32.le_iff_toNat_le] using hlower
      omega
    · have hbounds := isDigit_bounds h
      omega
    · decide
    · decide
  rw [← Char.ofNat_toNat c]
  exact mem_nameChars c.toNat hrange.1 hrange.2

/-- How a character of a name looks in the variable's. -/
def varChar (c : Char) : Char := (if c = '-' then '_' else c).toUpper

/-- The way back, as the SDKs take it. -/
def unvarChar (c : Char) : Char := (if c = '_' then '-' else c).toLower

/-- What holds over the alphabet holds of a character of a name. -/
theorem NameChar.eq_of_map {α : Type} {f g : Char → α}
    (hall : nameChars.map f = nameChars.map g) {c : Char} (h : NameChar c) :
    f c = g c := List.map_inj_left.mp hall c h.mem

theorem unvarChar_varChar {c : Char} (h : NameChar c) :
    unvarChar (varChar c) = c := by
  have hall : nameChars.map (fun c => unvarChar (varChar c)) =
      nameChars.map fun c => c := by decide
  exact NameChar.eq_of_map hall h

/-! ## A whole name -/

theorem nameChar_of_mem {n : String} (h : ObjectName n) {c : Char}
    (hc : c ∈ n.toList) : NameChar c := h.1 c hc

theorem ofList_map_of_id {n : String} {g : Char → Char}
    (h : ∀ c ∈ n.toList, g c = c) : String.ofList (n.toList.map g) = n := by
  have hmap : n.toList.map g = n.toList.map id := List.map_congr_left h
  rw [hmap, List.map_id, String.ofList_toList]

theorem toList_flagNameToEnvVar (n : String) :
    (flagNameToEnvVar n).toList = "FLAG_".toList ++ n.toList.map varChar := by
  rw [flagNameToEnvVar, toUpper, replaceAll, String.toList_append]
  simp only [String.toList_ofList, List.map_map]
  rfl

theorem hasPrefix_flagNameToEnvVar (n : String) :
    hasPrefix (flagNameToEnvVar n) "FLAG_" = true := by
  rw [hasPrefix, toList_flagNameToEnvVar, List.isPrefixOf_iff_prefix]
  exact List.prefix_append _ _

/-- Upper case first and the dashes after, as Node and Python do it. -/
theorem node_envName {n : String} (h : ObjectName n) :
    Node.envName n = flagNameToEnvVar n := by
  have hall : nameChars.map (fun c =>
      if c.toUpper = '-' then '_' else c.toUpper) = nameChars.map varChar := by
    decide
  have hchar : ∀ c ∈ n.toList,
      (if c.toUpper = '-' then '_' else c.toUpper) = varChar c :=
    fun c hc => NameChar.eq_of_map hall (nameChar_of_mem h hc)
  rw [Node.envName, flagNameToEnvVar, replaceAll, toUpper, toUpper, replaceAll]
  simp only [String.toList_ofList, List.map_map]
  congr 2
  refine List.map_congr_left fun c hc => ?_
  rw [Function.comp_apply]
  exact hchar c hc

/-- The name in a variable's name: lower case first and the dashes after. -/
def flagName (key : String) : String :=
  replaceAll (toLower (dropBytes key 5)) '_' '-'

/-- The same as `GetAllFlags` takes it. -/
def trimmedName (key : String) : String :=
  toLower (replaceAll (trimPrefix key "FLAG_") '_' '-')

theorem flagName_flagNameToEnvVar {n : String} (h : ObjectName n) :
    flagName (flagNameToEnvVar n) = n := by
  have hall : nameChars.map (fun c => if (varChar c).toLower = '_' then '-'
      else (varChar c).toLower) = nameChars.map fun c => c := by decide
  have hchar : ∀ c ∈ n.toList, (if (varChar c).toLower = '_' then '-'
      else (varChar c).toLower) = c :=
    fun c hc => NameChar.eq_of_map hall (nameChar_of_mem h hc)
  rw [flagName, replaceAll, toLower, dropBytes, toList_flagNameToEnvVar]
  simp only [String.toList_ofList, List.map_map]
  show String.ofList (List.map _ (n.toList.map varChar)) = n
  rw [List.map_map]
  refine ofList_map_of_id fun c hc => ?_
  rw [Function.comp_apply, Function.comp_apply]
  exact hchar c hc

theorem trimmedName_flagNameToEnvVar {n : String} (h : ObjectName n) :
    trimmedName (flagNameToEnvVar n) = n := by
  rw [trimmedName, trimPrefix, if_pos (hasPrefix_flagNameToEnvVar n),
    replaceAll, toLower, toList_flagNameToEnvVar, List.drop_left]
  simp only [String.toList_ofList, List.map_map]
  refine ofList_map_of_id fun c hc => ?_
  rw [Function.comp_apply, Function.comp_apply]
  exact unvarChar_varChar (nameChar_of_mem h hc)

/-- Distinct flags have distinct variables. -/
theorem flagNameToEnvVar_inj {n m : String} (hn : ObjectName n)
    (hm : ObjectName m) (h : flagNameToEnvVar n = flagNameToEnvVar m) :
    n = m := by
  have hback := congrArg flagName h
  rwa [flagName_flagNameToEnvVar hn, flagName_flagNameToEnvVar hm] at hback

/-! ## The whole environment -/

/-- The `FLAG_` variables of the environment are those of `flags`. -/
def Carries (env : Environment) (flags : GoMap String) : Prop :=
  ∀ k v, hasPrefix k "FLAG_" = true → (env.vars.lookup k = some v ↔
    ∃ n, flags.lookup n = some v ∧ k = flagNameToEnvVar n)

/-- A list call gives every flag of `flags` once and nothing else, and a single
call for a name gives what the list has under it. -/
structure ListsAll (flags : GoMap String) (one : String → Option Flag)
    (all : List Flag) : Prop where
  once : (all.map Flag.name).Nodup
  pairs : ∀ n v, (n, v) ∈ all.map (fun f => (f.name, f.value)) ↔
    flags.lookup n = some v
  single : ∀ n, ObjectName n → ∀ f, one n = some f ↔ f ∈ all ∧ f.name = n

/-- The flag a variable is read as. -/
def envFlag (n value : String) : Flag :=
  { name := n, type := "string", value := value }

/-- The list over the variables `ks`, for one way to read a name. -/
def listed (decode : String → String) (env : Environment) (ks : List String) :
    List Flag :=
  ks.filterMap fun k =>
    if hasPrefix k "FLAG_" then some (envFlag (decode k) (env.vars.index k))
    else none

section

variable {env : Environment} {flags : GoMap String} {ks : List String}

theorem Carries.lookup (hobj : ∀ n ∈ flags, ObjectName n)
    (h : Carries env flags) {n : String} (hn : ObjectName n) :
    env.vars.lookup (flagNameToEnvVar n) = flags.lookup n := by
  apply Option.ext
  intro v
  rw [h _ v (hasPrefix_flagNameToEnvVar n)]
  constructor
  · rintro ⟨m, hm, heq⟩
    have hmem : m ∈ flags := Finmap.mem_of_lookup_eq_some hm
    rwa [flagNameToEnvVar_inj hn (hobj m hmem) heq]
  · intro hv
    exact ⟨n, hv, rfl⟩

theorem mem_listed {decode : String → String}
    (hdecode : ∀ n, ObjectName n → decode (flagNameToEnvVar n) = n)
    (hobj : ∀ n ∈ flags, ObjectName n) (h : Carries env flags)
    (hks : env.vars.Ranges ks) {f : Flag} :
    f ∈ listed decode env ks ↔
      ∃ n v, flags.lookup n = some v ∧ f = envFlag n v := by
  rw [listed, List.mem_filterMap]
  constructor
  · rintro ⟨k, hk, hf⟩
    split at hf
    · next hpre =>
        obtain ⟨v, hv⟩ := Finmap.mem_iff.mp ((hks.2 k).mp hk)
        obtain ⟨n, hn, rfl⟩ := (h k v hpre).mp hv
        refine ⟨n, v, hn, ?_⟩
        have hobjn : ObjectName n := hobj n (Finmap.mem_of_lookup_eq_some hn)
        rw [hdecode n hobjn, GoMap.index_of_lookup hv] at hf
        exact (Option.some.inj hf).symm
    · cases hf
  · rintro ⟨n, v, hn, rfl⟩
    have hobjn : ObjectName n := hobj n (Finmap.mem_of_lookup_eq_some hn)
    have hv : env.vars.lookup (flagNameToEnvVar n) = some v := by
      rw [h.lookup hobj hobjn, hn]
    refine ⟨flagNameToEnvVar n, (hks.2 _).mpr ?_, ?_⟩
    · exact Finmap.mem_of_lookup_eq_some hv
    · rw [if_pos (hasPrefix_flagNameToEnvVar n), hdecode n hobjn,
        GoMap.index_of_lookup hv]

/-- No name is listed twice: the variables have distinct names. -/
theorem nodup_listed {decode : String → String}
    (hdecode : ∀ n, ObjectName n → decode (flagNameToEnvVar n) = n)
    (hobj : ∀ n ∈ flags, ObjectName n) (h : Carries env flags)
    (hks : env.vars.Ranges ks) :
    ((listed decode env ks).map Flag.name).Nodup := by
  rw [List.Nodup, List.pairwise_map, listed, List.pairwise_filterMap]
  refine hks.1.imp_of_mem fun {k k'} hk hk' hne f hf f' hf' => ?_
  have hvar : ∀ key ∈ ks, ∀ g, (if hasPrefix key "FLAG_" then
        some (envFlag (decode key) (env.vars.index key)) else none) = some g →
      key = flagNameToEnvVar g.name := by
    intro key hkey g hg
    split at hg
    · next hpre =>
        obtain ⟨v, hv⟩ := Finmap.mem_iff.mp ((hks.2 key).mp hkey)
        obtain ⟨n, hn, rfl⟩ := (h key v hpre).mp hv
        cases hg
        rw [envFlag, hdecode n (hobj n (Finmap.mem_of_lookup_eq_some hn))]
    · cases hg
  intro heq
  exact hne (by rw [hvar k hk f hf, hvar k' hk' f' hf', heq])

theorem listed_listsAll {decode : String → String} {one : String → Option Flag}
    (hdecode : ∀ n, ObjectName n → decode (flagNameToEnvVar n) = n)
    (hone : ∀ n, ObjectName n →
      one n = (env.vars.lookup (flagNameToEnvVar n)).map (envFlag n))
    (hobj : ∀ n ∈ flags, ObjectName n) (h : Carries env flags)
    (hks : env.vars.Ranges ks) :
    ListsAll flags one (listed decode env ks) where
  once := nodup_listed hdecode hobj h hks
  pairs n v := by
    rw [List.mem_map]
    constructor
    · rintro ⟨f, hf, heq⟩
      obtain ⟨m, w, hm, rfl⟩ := (mem_listed hdecode hobj h hks).mp hf
      cases heq
      exact hm
    · intro hv
      exact ⟨envFlag n v, (mem_listed hdecode hobj h hks).mpr ⟨n, v, hv, rfl⟩,
        rfl⟩
  single n hn f := by
    rw [hone n hn, h.lookup hobj hn, Option.map_eq_some_iff,
      mem_listed hdecode hobj h hks]
    constructor
    · rintro ⟨v, hv, rfl⟩
      exact ⟨⟨n, v, hv, rfl⟩, rfl⟩
    · rintro ⟨⟨m, v, hv, rfl⟩, hname⟩
      cases hname
      exact ⟨v, hv, rfl⟩

end

/-! ## The three SDKs -/

/-- Each variable comes apart again where `os.Environ` put it together. -/
theorem splitN2_environ {k v : String} (h : '=' ∉ k.toList) :
    splitN2 (k ++ "=" ++ v) '=' = [k, v] := by
  have hpos : ∀ c ∈ k.toList, decide (c ≠ '=') = true := by
    intro c hc
    simp only [decide_eq_true_eq]
    rintro rfl
    exact h hc
  have htext : (k ++ "=" ++ v).toList = k.toList ++ '=' :: v.toList := by
    simp [String.toList_append]
  rw [splitN2, htext, List.dropWhile_append_of_pos hpos,
    List.takeWhile_append_of_pos hpos]
  simp

theorem envGetAllFlags_eq {env : Environment} {ks : List String}
    (hks : env.vars.Ranges ks) :
    envGetAllFlags (env.environ ks) = listed trimmedName env ks := by
  rw [envGetAllFlags, Environment.environ, Environment.entries, listed,
    List.map_map, List.filterMap_map]
  refine List.filterMap_congr fun k hk => ?_
  have hsplit := splitN2_environ (v := env.vars.index k)
    (env.noEquals k ((hks.2 k).mp hk))
  simp only [Function.comp_apply, hsplit, trimmedName, envFlag]

theorem node_allEnv_eq (env : Environment) (ks : List String) :
    Node.allEnv (env.entries ks) = listed flagName env ks := by
  rw [Node.allEnv, Environment.entries, listed, List.filter_map, List.map_map,
    ← List.filterMap_eq_map, List.filterMap_filter]
  rfl

theorem python_allEnv_eq (env : Environment) (ks : List String) :
    Python.allEnv (env.entries ks) = listed flagName env ks := by
  rw [Python.allEnv, Environment.entries, listed, List.filterMap_map]
  rfl

/-- The operator and the SDKs name a flag's variable alike, distinct flags have
distinct variables, and an SDK lists from an environment with the variables of
`flags` just these flags, each once and as it gives it for the name. -/
theorem name_codec :
    (∀ flag delivery, ObjectName flag.metadata.name → delivery.name = "" →
      envVarName flag delivery = flagNameToEnvVar flag.metadata.name ∧
      envVarName flag delivery = Node.envName flag.metadata.name ∧
      envVarName flag delivery = Python.flagNameToEnv flag.metadata.name) ∧
    (∀ n m, ObjectName n → ObjectName m →
      flagNameToEnvVar n = flagNameToEnvVar m → n = m) ∧
    ∀ (env : Environment) (flags : GoMap String) (ks : List String),
      (∀ n ∈ flags, ObjectName n) → Carries env flags → env.vars.Ranges ks →
      ListsAll flags (fun n => (envProvider env.vars n).toOption)
        (envGetAllFlags (env.environ ks)) ∧
      ListsAll flags (Node.getEnv env.vars) (Node.allEnv (env.entries ks)) ∧
      ListsAll flags (Python.getEnv env.vars)
        (Python.allEnv (env.entries ks)) := by
  refine ⟨?_, fun n m => flagNameToEnvVar_inj, ?_⟩
  · intro flag delivery hn hempty
    have henv : envVarName flag delivery =
        flagNameToEnvVar flag.metadata.name := by
      rw [envVarName, if_pos hempty, flagNameToEnvVar]
    have hnode := node_envName hn
    exact ⟨henv, henv.trans hnode.symm, henv.trans hnode.symm⟩
  · intro env flags ks hobj h hks
    rw [envGetAllFlags_eq hks, node_allEnv_eq, python_allEnv_eq]
    refine ⟨listed_listsAll (fun n => trimmedName_flagNameToEnvVar) ?_ hobj h
      hks, listed_listsAll (fun n => flagName_flagNameToEnvVar) ?_ hobj h hks,
      listed_listsAll (fun n => flagName_flagNameToEnvVar) ?_ hobj h hks⟩
    · intro n hn
      rw [envProvider]
      cases env.vars.lookup (flagNameToEnvVar n) <;> rfl
    · intro n hn
      rw [Node.getEnv, node_envName hn]
      cases env.vars.lookup (flagNameToEnvVar n) <;> rfl
    · intro n hn
      have hnode := node_envName hn
      rw [Python.getEnv, Python.flagNameToEnv, ← Node.envName, hnode]
      cases env.vars.lookup (flagNameToEnvVar n) <;> rfl

/-- A process with the variable of one flag. -/
def darkModeEnv : Environment where
  vars := (GoMap.single "PATH" "/bin").insert "FLAG_DARK_MODE" "a=b"
  noEquals := by decide

theorem darkModeEnv_carries :
    Carries darkModeEnv (GoMap.single "dark-mode" "a=b") := by
  intro k v hpre
  have hpath : k ≠ "PATH" := by
    rintro rfl
    exact absurd hpre (by decide)
  have hname : flagNameToEnvVar "dark-mode" = "FLAG_DARK_MODE" := by decide
  rw [darkModeEnv, GoMap.lookup_insert, GoMap.lookup_single, if_neg hpath]
  simp only [GoMap.lookup_single]
  constructor
  · intro hv
    split at hv
    · next hk => exact ⟨"dark-mode", hv, hk.trans hname.symm⟩
    · cases hv
  · rintro ⟨n, hn, rfl⟩
    split at hn
    · next hdark =>
        rw [hdark, hname]
        exact hn
    · cases hn

theorem name_codec_sample :
    envVarName (sampleFlag {}) { selector := none } = "FLAG_DARK_MODE" ∧
      flagNameToEnvVar "dark-mode" ≠ flagNameToEnvVar "dark.mode" ∧
      ListsAll (GoMap.single "dark-mode" "a=b") (Node.getEnv darkModeEnv.vars)
        (Node.allEnv (darkModeEnv.entries ["PATH", "FLAG_DARK_MODE"])) := by
  refine ⟨?_, ?_, ?_⟩
  · have hvar : flagNameToEnvVar "dark-mode" = "FLAG_DARK_MODE" := by decide
    have hname := name_codec.1 (sampleFlag {}) { selector := none } (by decide)
      rfl
    exact hname.1.trans hvar
  · intro h
    have hdash : ObjectName "dark-mode" := by decide
    have hdot : ObjectName "dark.mode" := by decide
    exact absurd (name_codec.2.1 _ _ hdash hdot h) (by decide)
  · refine (name_codec.2.2 darkModeEnv (GoMap.single "dark-mode" "a=b")
      ["PATH", "FLAG_DARK_MODE"] ?_ darkModeEnv_carries ?_).2.1
    · decide
    · constructor
      · decide
      · intro k
        simp [darkModeEnv, GoMap.single, or_comm, Finmap.notMem_empty]

end Vexil.Sdk
