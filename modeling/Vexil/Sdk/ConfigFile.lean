import Vexil.Lib.JsonValue
import Vexil.Sdk.Client

/-!
# A JSON file, as four SDKs read it

The ConfigMap provider of each SDK, where its path is a file with a JSON
document. Go and .NET decode the document as a map of strings, Node and Python
decode it as it is and make text of what they find under the name.

Where a lookup throws and nothing catches it, it is `raised`. In Node everything
is caught, in Python only `JSONDecodeError` and `KeyError`, in .NET nothing.
-/

namespace Vexil.Sdk

open Vexil.Lib

/-- What the lookup of a flag comes to. The value of a flag may be `null` in
.NET. -/
inductive Lookup where
  | found (value : Option JsonText)
  | absent
  | raised
  deriving DecidableEq

/-- The members of an object go into a map one after the other, unless one of
them cannot be read. -/
def readMembers {E V : Type}
    (read : JsonText × JsonValue → Except E (String × V)) :
    GoMap V → List (JsonText × JsonValue) → Except E (GoMap V)
  | m, [] => .ok m
  | m, e :: es =>
      match read e with
      | .error err => .error err
      | .ok (k, v) => readMembers read (m.insert k v) es

/-! ## Go -/

/-- `UnmarshalTypeError.Value`. -/
def kindOf : JsonValue → String
  | .null => "null"
  | .bool _ => "bool"
  | .number _ => "number"
  | .string _ => "string"
  | .array _ => "array"
  | .object _ => "object"

def unmarshalTypeError (v : JsonValue) (type : String) : String :=
  "json: cannot unmarshal " ++ kindOf v ++ " into Go value of type " ++ type

/-- One member of a `map[string]string`; `null` leaves the zero value. -/
def unmarshalMember (m : JsonText × JsonValue) :
    Except String (String × String) :=
  match m.2 with
  | .null => .ok (goText m.1, "")
  | .string s => .ok (goText m.1, goText s)
  | v => .error (unmarshalTypeError v "string")

/-- `json.Unmarshal` into a `map[string]string`. -/
def unmarshal (doc : JsonValue) : Except String (GoMap String) :=
  match doc with
  | .null => .ok ∅
  | .object members => readMembers unmarshalMember ∅ members
  | v => .error (unmarshalTypeError v "map[string]string")

/-- `configMapProvider.GetFlag`; an error is a flag that is not there. -/
def goLookup (doc : JsonValue) (name : String) : Lookup :=
  match configMapProvider (.file (unmarshal doc)) name with
  | .error _ => .absent
  | .ok f => .found (some (.ofString f.value))

section
variable (printing : Printing)

/-! ## Node -/

/-- `getConfigMap`. -/
def Node.getConfigMap (doc : JsonValue) (name : String) : Lookup :=
  match Js.lookIn printing doc name with
  | none => .absent
  | some none => .absent
  | some (some value) => .found (some value)

/-! ## Python -/

/-- The value is a string with just this text. -/
def isText (name : String) : JsonValue → Bool
  | .string s => s = .ofString name
  | _ => false

/-- `_get_configmap`. A list has the name as an element, and a text has it as a
part, but neither can be indexed by it. -/
def Python.getConfigmap (doc : JsonValue) (name : String) : Lookup :=
  if Py.readable printing doc then
    match doc with
    | .object members =>
        match member members (.ofString name) with
        | none => .absent
        | some v => .found (some (Py.str printing v))
    | .array elems => if elems.any (isText name) then .raised else .absent
    | .string s => if JsonText.ofString name <:+: s then .raised else .absent
    | _ => .raised
  else .raised

end

/-! ## .NET -/

namespace Dotnet

/-- A text with half a pair of surrogates in it is a `JsonException`. -/
def stringOf : JsonText → Option String
  | [] => some ""
  | .surrogate _ :: _ => none
  | .scalar c :: s => (stringOf s).map (String.singleton c ++ ·)

/-- One member of a `Dictionary<string, string>`. -/
def readMember (m : JsonText × JsonValue) :
    Except Unit (String × Option String) :=
  match stringOf m.1 with
  | none => .error ()
  | some k =>
      match m.2 with
      | .null => .ok (k, none)
      | .string s =>
          match stringOf s with
          | none => .error ()
          | some v => .ok (k, some v)
      | _ => .error ()

/-- `ReadJsonFile`; the error is a `JsonException`. -/
def readJsonFile (doc : JsonValue) : Except Unit (GoMap (Option String)) :=
  match doc with
  | .null => .ok ∅
  | .object members => readMembers readMember ∅ members
  | _ => .error ()

/-- `ConfigMapProvider.GetFlag`. -/
def configMapGetFlag (doc : JsonValue) (name : String) : Lookup :=
  match readJsonFile doc with
  | .error _ => .raised
  | .ok flags =>
      match flags.lookup name with
      | none => .absent
      | some val => .found (val.map .ofString)

end Dotnet

/-! ## The four -/

/-- The lookups of one name in one file. -/
def fileLookups (printing : Printing) (doc : JsonValue) (name : String) :
    List Lookup :=
  [goLookup doc name, Node.getConfigMap printing doc name,
    Python.getConfigmap printing doc name, Dotnet.configMapGetFlag doc name]

/-- All find the flag with the same value, or none does. -/
def SameLookup (lookups : List Lookup) : Prop :=
  (∀ l ∈ lookups, l = .absent) ∨
    ∃ value, ∀ l ∈ lookups, l = .found (some value)

end Vexil.Sdk
