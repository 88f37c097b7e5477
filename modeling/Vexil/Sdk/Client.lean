import Vexil.Sidecar.FlagStore

/-!
# The Go SDK

`sdks/go/vexil`. A provider is asked for a flag by name and gives a `Flag` or
an error; the typed getters of the client give the caller's default whenever
there is an error, the flag is disabled or its text does not parse. The text of
an error never reaches a caller of a getter.

What a process has around it is given as data: its environment, what is mounted
at a path, and the sidecar it can reach.
-/

namespace Vexil.Sdk

open Vexil.Lib Vexil.Sidecar

structure Flag where
  name : String
  type : String
  value : String
  disabled : Bool := false
  deriving DecidableEq, Repr

/-- `Provider.GetFlag`, at one moment. -/
abbrev Provider := String → Except String Flag

/-! ## The client -/

structure Client where
  provider : Provider

namespace Client

def bool (c : Client) (name : String) (defaultVal : Bool) : Bool :=
  match c.provider name with
  | .error _ => defaultVal
  | .ok f => if f.disabled then defaultVal else (parseBool f.value).getD defaultVal

def string (c : Client) (name : String) (defaultVal : String) : String :=
  match c.provider name with
  | .error _ => defaultVal
  | .ok f => if f.disabled then defaultVal else f.value

def int (c : Client) (name : String) (defaultVal : Int) : Int :=
  match c.provider name with
  | .error _ => defaultVal
  | .ok f => if f.disabled then defaultVal else (atoi f.value).getD defaultVal

/-- Every getter returns the caller's default. -/
def Defaults (c : Client) (name : String) : Prop :=
  (∀ d, c.bool name d = d) ∧ (∀ d, c.string name d = d) ∧ ∀ d, c.int name d = d

/-- A client gives nothing but defaults exactly when its provider has no
enabled flag of that name. -/
theorem defaults_iff {c : Client} {name : String} :
    c.Defaults name ↔ ∀ f, c.provider name = .ok f → f.disabled = true := by
  unfold Defaults bool string int
  cases hp : c.provider name with
  | error err => simp
  | ok f =>
      by_cases hdis : f.disabled = true
      · simp [hdis]
      · simp only [hdis, Except.ok.injEq]
        constructor
        · rintro ⟨_, hstring, _⟩
          have hlong := congrArg String.length (hstring (f.value ++ "x"))
          simp at hlong
        · intro h
          exact absurd (h f rfl) hdis

end Client

/-! ## Environment variables -/

def flagNameToEnvVar (name : String) : String :=
  "FLAG_" ++ toUpper (replaceAll name '-' '_')

/-- `envProvider.GetFlag` in a process with the environment `env`. -/
def envProvider (env : GoMap String) : Provider := fun name =>
  match env.lookup (flagNameToEnvVar name) with
  | none => .error ("flag " ++ name ++ " not found (env var " ++
      flagNameToEnvVar name ++ ")")
  | some val => .ok { name := name, type := "string", value := val }

/-! ## A mounted ConfigMap -/

/-- What `os.Stat` and `os.ReadFile` find at the path of a provider: a
directory of files, or one file with what `json.Unmarshal` makes of it. -/
inductive ConfigPath where
  | missing
  | dir (files : GoMap String)
  | file (parsed : Except String (GoMap String))

/-- `configMapProvider.GetFlag`. -/
def configMapProvider (path : ConfigPath) : Provider := fun name =>
  match path with
  | .missing => .error "config path error: no such file or directory"
  | .dir files =>
      match files.lookup name with
      | none => .error ("flag " ++ name ++ " not found")
      | some data =>
          .ok { name := name, type := "string", value := trimSpace data }
  | .file parsed =>
      match parsed with
      | .error err => .error ("parsing: " ++ err)
      | .ok flags =>
          match flags.lookup name with
          | none => .error ("flag " ++ name ++ " not found")
          | some val => .ok { name := name, type := "string", value := val }

/-! ## The sidecar -/

/-- A flag as it comes out of the JSON the sidecar sends. -/
def decodeFlag (f : ResolvedFlag) : Flag where
  name := f.name
  type := f.type
  value := f.value
  disabled := f.disabled

/-- `sidecarProvider.GetFlag` and the cache it leaves, against a sidecar with
the store `s`. -/
def sidecarGetFlag (cache : GoMap Flag) (s : FlagStore) (name : String) :
    Except String Flag × GoMap Flag :=
  match cache.lookup name with
  | some f => (.ok f, cache)
  | none =>
      match handleFlag s name with
      | .eventStream => (.error "no JSON document in the response", cache)
      | .notFound => (.error ("flag " ++ name ++ " not found"), cache)
      | .ok f => (.ok (decodeFlag f), cache.insert name (decodeFlag f))

def sidecarProvider (cache : GoMap Flag) (s : FlagStore) : Provider :=
  fun name => (sidecarGetFlag cache s name).1

/-! ## When there is nothing to return but the default -/

theorem envProvider_defaults {env : GoMap String} {name : String} :
    Client.Defaults ⟨envProvider env⟩ name ↔
      env.lookup (flagNameToEnvVar name) = none := by
  rw [Client.defaults_iff]
  show (∀ f, envProvider env name = .ok f → f.disabled = true) ↔ _
  unfold envProvider
  cases env.lookup (flagNameToEnvVar name) with
  | none => simp
  | some val => simp

theorem dirProvider_defaults {files : GoMap String} {name : String} :
    Client.Defaults ⟨configMapProvider (.dir files)⟩ name ↔
      files.lookup name = none := by
  rw [Client.defaults_iff]
  show (∀ f, configMapProvider (.dir files) name = .ok f →
    f.disabled = true) ↔ _
  simp only [configMapProvider]
  cases files.lookup name with
  | none => simp
  | some val => simp

theorem missing_defaults {name : String} :
    Client.Defaults ⟨configMapProvider .missing⟩ name := by
  rw [Client.defaults_iff]
  intro f h
  cases h

/-- A disabled flag in the sidecar's store reads as its default. -/
theorem sidecar_defaults {s : FlagStore} {name : String}
    (h : ∀ f, s.get name = some f → f.disabled = true) :
    Client.Defaults ⟨sidecarProvider ∅ s⟩ name := by
  rw [Client.defaults_iff]
  show ∀ f, (sidecarGetFlag ∅ s name).1 = .ok f → f.disabled = true
  intro f hf
  rw [sidecarGetFlag, Finmap.lookup_empty, handleFlag] at hf
  by_cases hname : name = "stream"
  · rw [if_pos hname] at hf
    cases hf
  · rw [if_neg hname] at hf
    cases hg : s.get name with
    | none =>
        rw [hg] at hf
        cases hf
    | some g =>
        rw [hg] at hf
        cases hf
        exact h g hg

end Vexil.Sdk
