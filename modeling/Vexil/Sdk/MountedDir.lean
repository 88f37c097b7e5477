import Vexil.Lib.Files
import Vexil.Lib.Js
import Vexil.Lib.Trim
import Vexil.Sdk.Listing
import Vexil.Sdk.SidecarClients

/-!
# A mounted directory, as four SDKs read it

The ConfigMap provider of each SDK, where its path is a directory. The name of a
flag is put behind the path and the file there is read and trimmed. How the two
are put together is up to the path functions of each language: three of them
take dots out of the result before the operating system sees it, Python leaves
two dots to it, and for Python and .NET a name that begins with a slash is a
path of its own. How a text is decoded and trimmed is up to each language too.

The data of a ConfigMap are texts. A file of the directory has one, or cannot be
read; Python and .NET raise then. The operating system may also refuse to look,
where there is no permission on the way or the path is too long. Only Python
tells this from a file that is not there: before version 3.14, `is_file` raises.
-/

namespace Vexil.Sdk

open Vexil.Lib

/-! ## The path of a flag -/

/-- The name behind the path of the directory. -/
def below (dir name : List Char) : List Char := dir ++ '/' :: name

section
variable (dir name : List Char)

/-- `filepath.Join`. -/
def Go.filePath : List Char := clean (if name = [] then dir else below dir name)

/-- `path.join`, which keeps a slash at the end. -/
def Node.filePath : List Char :=
  cleanPath (if name = [] then dir else below dir name)

/-- `Path(dir) / name`. -/
def Python.filePath : List Char :=
  join (names ((if name.head? = some '/' then name
    else below dir name).splitOn '/'))

/-- `Path.Combine`, and `Path.GetFullPath` of the result, which keeps a slash at
the end. -/
def Dotnet.filePath : List Char :=
  cleanPath (if name = [] then dir else if name.head? = some '/' then name
    else below dir name)

end

/-! ## The file there -/

section
variable {N : Type} (fs : Files N String) (dir name : List Char)

/-- `os.ReadFile`. -/
def Go.fetch : Option (Option String) := fs.file? (Go.filePath dir name)

/-- `existsSync` and `readFileSync`. -/
def Node.fetch : Option (Option String) := fs.file? (Node.filePath dir name)

/-- `is_file` and `read_text`. -/
def Python.fetch : Option (Option String) := fs.file? (Python.filePath dir name)

/-- `File.Exists` and `File.ReadAllText`; what ends with a slash is no file. -/
def Dotnet.fetch : Option (Option String) :=
  let path := Dotnet.filePath dir name
  if path.getLast? = some '/' then none else fs.file? path

/-- What each SDK finds. -/
def fetches : List (Option (Option String)) :=
  [Go.fetch fs dir name, Node.fetch fs dir name, Python.fetch fs dir name,
    Dotnet.fetch fs dir name]

end

/-! ## Its text -/

/-- `str.isspace`, for one character. -/
def Python.isSpace (c : Char) : Bool :=
  Lib.isSpace c ∨ (0x1C ≤ c.toNat ∧ c.toNat ≤ 0x1F)

/-- Universal newlines, after a carriage return or not. -/
def Python.newlines : Bool → List Char → List Char
  | _, [] => []
  | afterReturn, c :: cs =>
      if c = '\r' then '\n' :: newlines true cs
      else if c = '\n' ∧ afterReturn then newlines false cs
      else c :: newlines false cs

/-- The mark that .NET takes for one of the encoding. -/
def Dotnet.dropMark : List Char → List Char
  | [] => []
  | c :: cs => if c.toNat = 0xFEFF then cs else c :: cs

/-- `strings.TrimSpace(string(data))`. -/
def Go.valueOf (data : String) : String := trimSpace data

/-- `readFileSync(filePath, 'utf-8').trim()`. -/
def Node.valueOf (data : String) : String := Js.trim data

/-- `flag_file.read_text().strip()`. -/
def Python.valueOf (data : String) : String :=
  String.ofList (trimBy Python.isSpace (Python.newlines false data.toList))

/-- `File.ReadAllText(filePath).Trim()`; `char.IsWhiteSpace` is the same as
`unicode.IsSpace`. -/
def Dotnet.valueOf (data : String) : String :=
  String.ofList (trimBy isSpace (Dotnet.dropMark data.toList))

/-! ## The lookups -/

/-- What the process can see of the files. -/
structure MountedFiles (N : Type) where
  files : Files N String
  /-- To look at the path is an error, and another one than that there is no
  such file. -/
  denied : List Char → Bool
  /-- `is_file` raises at such an error. -/
  isFileRaises : Bool

/-- What is found at a path, if one may look. -/
def MountedFiles.found {N : Type} (m : MountedFiles N) (path : List Char)
    (file : Option (Option String)) : Option (Option String) :=
  if m.denied path then none else file

section
variable {N : Type} (m : MountedFiles N) (dir name : String)

def textFlag (value : String) : Flag where
  name := name
  type := "string"
  value := value

/-- `configMapProvider.GetFlag`; an error is a flag that is not there. -/
def Go.mountedGetFlag : Reply (Option Flag) :=
  let file := m.found (Go.filePath dir.toList name.toList)
    (Go.fetch m.files dir.toList name.toList)
  .returns (file.join.map fun data => textFlag name (Go.valueOf data))

/-- `getConfigMap`; everything is caught. -/
def Node.mountedGetFlag : Reply (Option Flag) :=
  let file := m.found (Node.filePath dir.toList name.toList)
    (Node.fetch m.files dir.toList name.toList)
  .returns (file.join.map fun data => textFlag name (Node.valueOf data))

/-- `_get_configmap`. -/
def Python.mountedGetFlag : Reply (Option Flag) :=
  let path := Python.filePath dir.toList name.toList
  if m.denied path ∧ m.isFileRaises then .lost
  else
    match m.found path (Python.fetch m.files dir.toList name.toList) with
    | none => .returns none
    | some none => .lost
    | some (some data) => .returns (some (textFlag name (Python.valueOf data)))

/-- `ConfigMapProvider.GetFlag`; `File.Exists` is false at any error. -/
def Dotnet.mountedGetFlag : Reply (Option Flag) :=
  match m.found (Dotnet.filePath dir.toList name.toList)
    (Dotnet.fetch m.files dir.toList name.toList) with
  | none => .returns none
  | some none => .lost
  | some (some data) => .returns (some (textFlag name (Dotnet.valueOf data)))

/-- The lookups of one name. -/
def mountedLookups : List (Reply (Option Flag)) :=
  [Go.mountedGetFlag m dir name, Node.mountedGetFlag m dir name,
    Python.mountedGetFlag m dir name, Dotnet.mountedGetFlag m dir name]

end

end Vexil.Sdk
