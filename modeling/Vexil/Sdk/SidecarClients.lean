import Vexil.Sidecar.Api
import Vexil.Sdk.ConfigFile

/-!
# Four SDKs against the sidecar's HTTP API

What each SDK makes of a response of the sidecar. All of them put the name of a
flag into the path as it is, at an address that has no path of its own, and all
of them read JSON; what they do with a document that is not as expected differs.
In Go and .NET the members go into the fields of a record, with an error for one
of the wrong type. Node takes the document itself for the flag, and Python takes
its members as they are.

The event stream never ends. A reader that waits for its end raises when the
time is up, or waits on.
-/

namespace Vexil.Sdk

open Vexil.Lib Vexil.Sidecar

/-! ## Requests -/

def flagPath (name : String) : String := "/flags/" ++ name

def flagsPath : String := "/flags"

/-- `GET path`; a path that does not decode is no URL. A redirect is not
followed. -/
def httpGet (order : List ResolvedFlag) (s : FlagStore) (path : String) :
    Option Response :=
  match h : unescape path.toList with
  | none => none
  | some d => some (respond order s "GET" ⟨path, String.ofList d, by simp [h]⟩)

/-- What a call comes to, if it comes to an end. -/
inductive Reply (α : Type) where
  | returns (a : α)
  /-- It raises, or it waits. -/
  | lost

def Reply.toOption {α : Type} : Reply α → Option α
  | .returns a => some a
  | .lost => none

/-! ## Go -/

namespace Go

/-- What `encoding/json` compares of a key; there are two letters beyond ASCII
that count as one of its letters. -/
def foldRune (c : Char) : Char :=
  if c.toNat = 0x17F then 's' else if c.toNat = 0x212A then 'k' else c.toLower

def foldName (s : String) : String := String.ofList (s.toList.map foldRune)

def fieldTypeError (v : JsonValue) (field type : String) : String :=
  "json: cannot unmarshal " ++ kindOf v ++ " into Go struct field Flag." ++
    field ++ " of type " ++ type

/-- A string field; `null` leaves it as it is. -/
def stringField (field old : String) : JsonValue → Except String String
  | .null => .ok old
  | .string s => .ok (goText s)
  | v => .error (fieldTypeError v field "string")

def boolField (field : String) (old : Bool) : JsonValue → Except String Bool
  | .null => .ok old
  | .bool b => .ok b
  | v => .error (fieldTypeError v field "bool")

/-- One member of the document of a `Flag`. -/
def setField (f : Flag) (m : JsonText × JsonValue) : Except String Flag :=
  let key := foldName (goText m.1)
  if key = "name" then do
    return { f with name := ← stringField "name" f.name m.2 }
  else if key = "type" then do
    return { f with type := ← stringField "type" f.type m.2 }
  else if key = "value" then do
    return { f with value := ← stringField "value" f.value m.2 }
  else if key = "disabled" then do
    return { f with disabled := ← boolField "disabled" f.disabled m.2 }
  else .ok f

/-- `Decode` into a `Flag`. -/
def decodeDoc : JsonValue → Except String Flag
  | .null => .ok { name := "", type := "", value := "" }
  | .object members =>
      members.foldlM setField { name := "", type := "", value := "" }
  | v => .error (unmarshalTypeError v "vexil.Flag")

/-- `Decode` into a `[]Flag`. -/
def decodeDocs : JsonValue → Except String (List Flag)
  | .null => .ok []
  | .array elems => elems.mapM decodeDoc
  | v => .error (unmarshalTypeError v "[]vexil.Flag")

/-- `json.NewDecoder(resp.Body).Decode`: the first document counts. -/
def decodeBody {α : Type} (decode : JsonValue → Except String α) :
    Body → Except String α
  | .events => .error "no JSON document in the response"
  | .text cs =>
      match Json.readFirst cs with
      | none => .error "no JSON document in the response"
      | some (doc, _) => decode doc

/-- `sidecarProvider.GetFlag` after a miss in the cache. -/
def getFlag (name : String) : Option Response → Except String Flag
  | none => .error "sidecar request failed"
  | some resp =>
      if resp.status = 404 then .error ("flag " ++ name ++ " not found")
      else if resp.status ≠ 200 then
        .error ("sidecar returned " ++ toString resp.status)
      else decodeBody decodeDoc resp.body

/-- `sidecarProvider.GetAllFlags`, which does not look at the status. -/
def getAllFlags : Option Response → Except String (List Flag)
  | none => .error "sidecar request failed"
  | some resp => decodeBody decodeDocs resp.body

end Go

/-- A status of success. -/
def Response.isOk (resp : Response) : Bool :=
  200 ≤ resp.status ∧ resp.status < 300

/-! ## Node -/

namespace Node

/-- `getSidecar`: the flag is the document. -/
def getSidecar : Option Response → Reply (Option JsonValue)
  | none => .returns none
  | some resp =>
      if Response.isOk resp then
        match resp.body with
        | .events => .lost
        | .text cs => .returns (Json.read cs)
      else .returns none

/-- `allSidecar`. -/
def allSidecar : Option Response → Reply JsonValue
  | none => .returns (.array [])
  | some resp =>
      if Response.isOk resp then
        match resp.body with
        | .events => .lost
        | .text cs => .returns ((Json.read cs).getD (.array []))
      else .returns (.array [])

end Node

/-! ## Python -/

namespace Python

/-- `Flag`; nothing checks what is put into it. -/
structure FlagObject where
  name : JsonValue
  type : JsonValue
  value : JsonValue
  disabled : JsonValue

/-- `Flag(name=data["name"], …)`; `none` is a `KeyError`. -/
def flagObject (members : List (JsonText × JsonValue)) : Option FlagObject :=
  match member members (.ofString "name"), member members (.ofString "value") with
  | some name, some value =>
      some {
        name := name
        type := (member members (.ofString "type")).getD
          (.string (.ofString "string"))
        value := value
        disabled := (member members (.ofString "disabled")).getD (.bool false) }
  | _, _ => none

/-- `_get_sidecar`. Only an object can be indexed by a string. -/
def getSidecar : Option Response → Reply (Option FlagObject)
  | none => .returns none
  | some resp =>
      if resp.status = 200 then
        match resp.body with
        | .events => .lost
        | .text cs =>
            match Json.read cs with
            | none => .returns none
            | some (.object members) => .returns (flagObject members)
            | some _ => .lost
      else .returns none

/-- One element of the list; a `KeyError` is not caught there. -/
def listedFlag : JsonValue → Option FlagObject
  | .object members => flagObject members
  | _ => none

/-- `_all_sidecar`. -/
def allSidecar : Option Response → Reply (List FlagObject)
  | none => .returns []
  | some resp =>
      if resp.status = 200 then
        match resp.body with
        | .events => .lost
        | .text cs =>
            match Json.read cs with
            | none => .returns []
            | some (.array elems) =>
                (elems.mapM listedFlag).elim .lost .returns
            | some (.object []) => .returns []
            | some (.string []) => .returns []
            | some _ => .lost
      else .returns []

end Python

/-! ## .NET -/

namespace Dotnet

/-- `Flag`; a string may be `null` after all. -/
structure FlagRecord where
  name : Option String := some ""
  type : Option String := some "string"
  value : Option String := some ""
  disabled : Bool := false

/-- A string; `none` is a `JsonException`. -/
def stringProperty : JsonValue → Option (Option String)
  | .null => some none
  | .string s => (stringOf s).map some
  | _ => none

def boolProperty : JsonValue → Option Bool
  | .bool b => some b
  | _ => none

/-- One member, with `PropertyNameCaseInsensitive`. -/
def setProperty (f : FlagRecord) (m : JsonText × JsonValue) :
    Option FlagRecord := do
  let key := toLower (← stringOf m.1)
  if key = "name" then
    return { f with name := ← stringProperty m.2 }
  else if key = "type" then
    return { f with type := ← stringProperty m.2 }
  else if key = "value" then
    return { f with value := ← stringProperty m.2 }
  else if key = "disabled" then
    return { f with disabled := ← boolProperty m.2 }
  else return f

/-- `Deserialize<Flag>`, which gives `null` for `null`. -/
def deserialize : JsonValue → Option (Option FlagRecord)
  | .null => some none
  | .object members => (members.foldlM setProperty {}).map some
  | _ => none

/-- `Deserialize<List<Flag>>`, or an empty list for `null`. -/
def deserializeList : JsonValue → Option (List (Option FlagRecord))
  | .null => some []
  | .array elems => elems.mapM deserialize
  | _ => none

/-- The text of a response that is one; the stream runs into the timeout. -/
def readBody (resp : Response) : Option JsonValue :=
  if Response.isOk resp then
    match resp.body with
    | .events => none
    | .text cs => Json.read cs
  else none

/-- `SidecarProvider.GetFlag`; every exception is caught. -/
def sidecarGetFlag (resp : Option Response) : Option FlagRecord :=
  ((resp.bind readBody).bind deserialize).join

/-- `SidecarProvider.GetAllFlags`. -/
def sidecarGetAllFlags (resp : Option Response) : List (Option FlagRecord) :=
  ((resp.bind readBody).bind deserializeList).getD []

end Dotnet

/-! ## The four -/

/-- The text of a string. -/
def textOf : JsonValue → Option String
  | .string s => Dotnet.stringOf s
  | _ => none

/-- A flag whose fields are of the types that are declared for them. -/
def typedFlag (name type value disabled : JsonValue) : Option Flag := do
  return {
    name := ← textOf name
    type := ← textOf type
    value := ← textOf value
    disabled := ← Dotnet.boolProperty disabled }

/-- The document as the interface `Flag` declares it. -/
def Node.asFlag : JsonValue → Option Flag
  | .object members => do
      typedFlag (← member members (.ofString "name"))
        (← member members (.ofString "type"))
        (← member members (.ofString "value"))
        (← member members (.ofString "disabled"))
  | _ => none

def Node.asFlags : JsonValue → Option (List Flag)
  | .array elems => elems.mapM Node.asFlag
  | _ => none

def Python.FlagObject.asFlag (f : Python.FlagObject) : Option Flag :=
  typedFlag f.name f.type f.value f.disabled

def Dotnet.FlagRecord.asFlag (f : Dotnet.FlagRecord) : Option Flag := do
  return {
    name := ← f.name
    type := ← f.type
    value := ← f.value
    disabled := f.disabled }

/-- The flag that each SDK gets over HTTP for a name. -/
def sidecarLookups (order : List ResolvedFlag) (s : FlagStore) (name : String) :
    List (Option Flag) :=
  let resp := httpGet order s (flagPath name)
  [(Go.getFlag name resp).toOption,
    (Node.getSidecar resp).toOption.join.bind Node.asFlag,
    (Python.getSidecar resp).toOption.join.bind Python.FlagObject.asFlag,
    (Dotnet.sidecarGetFlag resp).bind Dotnet.FlagRecord.asFlag]

/-- The flag that each SDK reads for a name: Go asks its cache first. -/
def sidecarReads (cache : GoMap Flag) (order : List ResolvedFlag)
    (s : FlagStore) (name : String) : List (Option Flag) :=
  match cache.lookup name with
  | some f => some f :: (sidecarLookups order s name).tail
  | none => sidecarLookups order s name

theorem mem_sidecarReads {cache : GoMap Flag} {order : List ResolvedFlag}
    {s : FlagStore} {name : String} {r : Option Flag}
    (hr : r ∈ sidecarReads cache order s name) :
    (∃ f, cache.lookup name = some f ∧ r = some f) ∨
      r ∈ sidecarLookups order s name := by
  unfold sidecarReads at hr
  split at hr
  · next f hcached =>
      rcases List.mem_cons.mp hr with heq | hmem
      · exact .inl ⟨f, hcached, heq⟩
      · exact .inr (List.mem_of_mem_tail hmem)
  · exact .inr hr

/-- What the lookups should be: there is no document under the name of the stream. -/
def servedFlag (s : FlagStore) (name : String) : Option Flag :=
  if name = "stream" then none else (s.get name).map decodeFlag

/-- `GET /flags/{name}/value` gives the text. -/
def GivesValue (order : List ResolvedFlag) (s : FlagStore) (name value : String) :
    Prop :=
  ∃ resp, httpGet order s (flagPath name ++ "/value") = some resp ∧
    resp.status = 200 ∧ resp.body = .text value.toList

/-- The flags that each SDK lists. -/
def sidecarListings (order : List ResolvedFlag) (s : FlagStore) :
    List (Option (List Flag)) :=
  let resp := httpGet order s flagsPath
  [(Go.getAllFlags resp).toOption,
    (Node.allSidecar resp).toOption.bind Node.asFlags,
    (Python.allSidecar resp).toOption.bind
      (List.mapM Python.FlagObject.asFlag),
    (Dotnet.sidecarGetAllFlags resp).mapM (Option.bind · Dotnet.FlagRecord.asFlag)]

end Vexil.Sdk
