import Vexil.Kube.Names
import Vexil.Sdk.Environment

/-!
# The list calls of the Go SDK

`GetAllFlags` of the environment and of the ConfigMap provider, and `GetFlag` of
the latter on a directory with everything that can be in one. How `ToLower` maps
what is beyond ASCII is left open; on variables in ASCII, and on the files of a
directory that can be read, these are the functions that are used elsewhere
(`envGetAllFlagsBy_eq`, `mountGetFlag_dir`).
-/

namespace Vexil.Sdk

open Vexil.Lib Vexil.Kube

/-! ## The environment -/

/-- `strings.ToLower`, where `other` maps what is not ASCII. -/
def toLowerBy (other : Char → Char) (s : String) : String :=
  String.ofList (s.toList.map fun c =>
    if c.toNat < 128 then c.toLower else other c)

/-- `envProvider.GetAllFlags`. -/
def envGetAllFlagsBy (other : Char → Char) (environ : List String) :
    List Flag :=
  environ.filterMap fun env =>
    match splitN2 env '=' with
    | [key, val] =>
        if hasPrefix key "FLAG_" then some {
          name := toLowerBy other
            (replaceAll (trimPrefix key "FLAG_") '_' '-')
          type := "string"
          value := val }
        else none
    | _ => none

theorem toLowerBy_id (s : String) : toLowerBy id s = toLower s := by
  have hchar : ∀ c : Char, (if c.toNat < 128 then c.toLower else id c) =
      c.toLower := by
    intro c
    split
    · rfl
    · next h =>
        have hupper : ¬ (c.val ≥ 'A'.val ∧ c.val ≤ 'Z'.val) := by
          rintro ⟨_, hle⟩
          have hnat : c.toNat ≤ 90 := UInt32.le_iff_toNat_le.mp hle
          omega
        have hlower : c.toLower = c := dif_neg hupper
        exact hlower.symm
  simp only [toLowerBy, toLower, hchar]

theorem envGetAllFlagsBy_eq (environ : List String) :
    envGetAllFlagsBy id environ = envGetAllFlags environ := by
  simp only [envGetAllFlagsBy, toLowerBy_id]
  rfl

/-! ## A mounted ConfigMap -/

/-- An entry of a directory. What is no directory may be a link, and `none` is
one that cannot be read. -/
inductive DirEntry where
  | dir
  | file (data : Option String)
  deriving DecidableEq

namespace DirEntry

def isDir : DirEntry → Bool
  | dir => true
  | file _ => false

/-- `os.ReadFile`. -/
def readFile : DirEntry → Option String
  | dir => none
  | file data => data

end DirEntry

/-- What there is at the path of a provider; a directory that can be searched
may not be one that can be listed. -/
inductive Mount where
  | missing
  | dir (entries : GoMap DirEntry) (readDirError : Option String := none)
  | file (parsed : Except String (GoMap String))

/-- The flag of a file's text. -/
def fileFlag (name data : String) : Flag where
  name := name
  type := "string"
  value := trimSpace data

/-- `configMapProvider.GetFlag`, for a name that is that of an entry. -/
def mountGetFlag (mount : Mount) : Provider := fun name =>
  match mount with
  | .missing => .error "config path error: no such file or directory"
  | .dir entries _ =>
      match (entries.lookup name).bind DirEntry.readFile with
      | none => .error ("flag " ++ name ++ " not found")
      | some data => .ok (fileFlag name data)
  | .file parsed =>
      match parsed with
      | .error err => .error ("parsing: " ++ err)
      | .ok flags =>
          match flags.lookup name with
          | none => .error ("flag " ++ name ++ " not found")
          | some val => .ok { name := name, type := "string", value := val }

/-- One entry of the directory, in the loop of `GetAllFlags`. -/
def entryFlag (entries : GoMap DirEntry) (name : String) : Option Flag :=
  match entries.lookup name with
  | none => none
  | some e =>
      if e.isDir || hasPrefix name "." then none
      else e.readFile.map (fileFlag name)

/-- `configMapProvider.GetAllFlags`. `os.ReadDir` sorts by name; the order of a
map is `order`. -/
def mountGetAllFlags (order : GoMap String → List String) (mount : Mount) :
    Except String (List Flag) :=
  match mount with
  | .missing => .error "config path error: no such file or directory"
  | .dir _ (some err) => .error err
  | .dir entries none => .ok (entries.sortedKeys.filterMap (entryFlag entries))
  | .file parsed =>
      match parsed with
      | .error err => .error ("parsing: " ++ err)
      | .ok flags => .ok ((order flags).map fun name => {
          name := name
          type := "string"
          value := flags.index name })

/-- Only the files that can be read count for a single flag. -/
theorem mountGetFlag_dir {entries : GoMap DirEntry} {files : GoMap String}
    (h : ∀ name, files.lookup name =
      (entries.lookup name).bind DirEntry.readFile)
    (readDirError : Option String) :
    mountGetFlag (.dir entries readDirError) =
      configMapProvider (.dir files) := by
  funext name
  simp only [mountGetFlag, configMapProvider, h]
  rfl

theorem mountGetFlag_file (parsed : Except String (GoMap String)) :
    mountGetFlag (.file parsed) = configMapProvider (.file parsed) := by
  funext name
  cases parsed <;> rfl

end Vexil.Sdk
