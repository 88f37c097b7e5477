import Vexil.Lib.Go

/-!
# JSON documents, and their values as text

A document is given by its structure: members in their order, with those whose
keys repeat, and numbers as they are written. In the text of a string a
surrogate stands alone where an escape was written for one half of a pair only.

Go reads text without lone surrogates. JavaScript and Python have their own text
for each value: `Js.string` is `String` and `Py.str` is `str`. How the two print
a number, and which characters Python prints as they are, is left open
(`Printing`).
-/

namespace Vexil.Lib

/-! ## Documents -/

inductive JsonChar where
  | scalar (c : Char)
  | surrogate (n : Nat)
  deriving DecidableEq, Repr

/-- The text of a string. -/
abbrev JsonText := List JsonChar

def JsonText.ofString (s : String) : JsonText := s.toList.map .scalar

inductive JsonValue where
  | null
  | bool (b : Bool)
  | number (numeral : String)
  | string (s : JsonText)
  | array (elems : List JsonValue)
  | object (members : List (JsonText × JsonValue))

namespace JsonValue

mutual

/-- The same document, written in the same way. -/
def same : JsonValue → JsonValue → Bool
  | .null, .null => true
  | .bool a, .bool b => a = b
  | .number a, .number b => a = b
  | .string a, .string b => a = b
  | .array vs, .array ws => sameElems vs ws
  | .object ms, .object ns => sameMembers ms ns
  | _, _ => false

def sameElems : List JsonValue → List JsonValue → Bool
  | [], [] => true
  | v :: vs, w :: ws => same v w && sameElems vs ws
  | _, _ => false

def sameMembers :
    List (JsonText × JsonValue) → List (JsonText × JsonValue) → Bool
  | [], [] => true
  | (k, v) :: ms, (l, w) :: ns => k = l && same v w && sameMembers ms ns
  | _, _ => false

end

mutual

theorem same_iff (v w : JsonValue) : same v w = true ↔ v = w := by
  cases v with
  | null => cases w <;> simp [same]
  | bool a => cases w <;> simp [same]
  | number a => cases w <;> simp [same]
  | string a => cases w <;> simp [same]
  | array vs =>
      cases w with
      | array ws => simpa [same] using sameElems_iff vs ws
      | _ => simp [same]
  | object ms =>
      cases w with
      | object ns => simpa [same] using sameMembers_iff ms ns
      | _ => simp [same]

theorem sameElems_iff (vs ws : List JsonValue) :
    sameElems vs ws = true ↔ vs = ws := by
  cases vs with
  | nil => cases ws <;> simp [sameElems]
  | cons v vs =>
      cases ws with
      | nil => simp [sameElems]
      | cons w ws =>
          rw [sameElems, Bool.and_eq_true, same_iff v w, sameElems_iff vs ws,
            List.cons.injEq]

theorem sameMembers_iff (ms ns : List (JsonText × JsonValue)) :
    sameMembers ms ns = true ↔ ms = ns := by
  cases ms with
  | nil => cases ns <;> simp [sameMembers]
  | cons m ms =>
      cases ns with
      | nil => simp [sameMembers]
      | cons n ns =>
          cases m with
          | mk k v =>
              cases n with
              | mk l w =>
                  rw [sameMembers, Bool.and_eq_true, Bool.and_eq_true,
                    decide_eq_true_iff, same_iff v w, sameMembers_iff ms ns,
                    List.cons.injEq, Prod.mk.injEq]

end

instance : DecidableEq JsonValue := fun v w =>
  decidable_of_iff _ (same_iff v w)

end JsonValue

/-- The member of an object under a key: of those with one key the last. -/
def member (members : List (JsonText × JsonValue)) (k : JsonText) :
    Option JsonValue :=
  (members.filter fun m => m.1 = k).getLast?.map Prod.snd

/-! ## Go -/

/-- A character as `json.Unmarshal` has it. -/
def goChar : JsonChar → Char
  | .scalar c => c
  | .surrogate _ => Char.ofNat 0xFFFD

def goText (s : JsonText) : String := String.ofList (s.map goChar)

theorem ofString_injective : Function.Injective JsonText.ofString := by
  intro s t h
  have hchars : s.toList = t.toList :=
    List.map_injective_iff.mpr (fun _ _ h => JsonChar.scalar.inj h) h
  exact String.toList_inj.mp hchars

theorem ofString_eq_iff {s t : String} :
    JsonText.ofString s = .ofString t ↔ s = t := ofString_injective.eq_iff

theorem goText_ofString (t : String) : goText (.ofString t) = t := by
  rw [goText, JsonText.ofString, List.map_map]
  exact (congrArg String.ofList (List.map_id t.toList)).trans
    String.ofList_toList

/-! ## Other languages -/

/-- What the runtimes do with a number, as it is written, and with characters
that are not ASCII. There are numbers that Python does not read. -/
structure Printing where
  jsNumber : String → String
  pyNumber : String → Option String
  isPrintable : Char → Bool

/-! ## JavaScript -/

namespace Js

/-- The text of a function of the language. -/
def native (name : String) : String :=
  "function " ++ name ++ "() \x7b [native code] \x7d"

/-- The properties that every object inherits, as text. -/
def objectPrototype : List (String × String) :=
  [("constructor", native "Object"), ("__proto__", "[object Object]")] ++
    ["__defineGetter__", "__defineSetter__", "hasOwnProperty",
      "__lookupGetter__", "__lookupSetter__", "isPrototypeOf",
      "propertyIsEnumerable", "toString", "valueOf", "toLocaleString"].map
        fun name => (name, native name)

/-- Those that an array inherits. -/
def arrayPrototype : List (String × String) :=
  [("constructor", native "Array"), ("__proto__", "")] ++
    ["at", "concat", "copyWithin", "fill", "find", "findIndex", "findLast",
      "findLastIndex", "lastIndexOf", "pop", "push", "reverse", "shift",
      "unshift", "slice", "sort", "splice", "includes", "indexOf", "join",
      "keys", "entries", "values", "forEach", "filter", "flat", "flatMap",
      "map", "every", "some", "reduce", "reduceRight", "toReversed",
      "toSorted", "toSpliced", "toLocaleString", "toString", "with"].map
        (fun name => (name, native name)) ++ objectPrototype

section
variable (printing : Printing)

mutual

/-- `String(v)`; an object with a `toString` of its own has no text, since that
is no function. -/
def string : JsonValue → Option JsonText
  | .null => some (.ofString "null")
  | .bool b => some (.ofString (if b then "true" else "false"))
  | .number numeral => some (.ofString (printing.jsNumber numeral))
  | .string s => some s
  | .array elems =>
      (strings elems).map (List.intercalate (JsonText.ofString ","))
  | .object members =>
      if members.any fun m => m.1 = .ofString "toString" then none
      else some (.ofString "[object Object]")

/-- The elements that `join` puts together. -/
def strings : List JsonValue → Option (List JsonText)
  | [] => some []
  | .null :: elems => (strings elems).map ([] :: ·)
  | v :: elems =>
      match string v with
      | none => none
      | some s => (strings elems).map (s :: ·)

end

/-- What counts as true; every zero is printed as `0`. -/
def truthy : JsonValue → Bool
  | .null => false
  | .bool b => b
  | .number numeral => printing.jsNumber numeral ≠ "0"
  | .string s => s ≠ []
  | .array _ => true
  | .object _ => true

/-- `name in data` and `String(data[name])`: `none` is a `TypeError`, and
`some none` stands for a name that is not in it. -/
def lookIn (data : JsonValue) (name : String) : Option (Option JsonText) :=
  match data with
  | .object members =>
      match member members (.ofString name) with
      | some v => (string printing v).map some
      | none => some ((objectPrototype.lookup name).map .ofString)
  | .array elems =>
      if name = "length" then some (some (.ofString (toString elems.length)))
      else
        match elems.zipIdx.find? fun e => toString e.2 = name with
        | some e => (string printing e.1).map some
        | none => some ((arrayPrototype.lookup name).map .ofString)
  | _ => none

end

end Js

/-! ## Python -/

namespace Py

/-- A number in base 16, with `width` digits. -/
def hex (width n : Nat) : List Char :=
  (List.range width).reverse.map fun i => hexDigit (n / 16 ^ i % 16)

def escaped (n : Nat) : List Char :=
  if n < 0x100 then '\\' :: 'x' :: hex 2 n
  else if n < 0x10000 then '\\' :: 'u' :: hex 4 n
  else '\\' :: 'U' :: hex 8 n

section
variable (printing : Printing)

/-- One character between quotes. -/
def quotedChar (quote : Char) : JsonChar → List Char
  | .surrogate n => escaped n
  | .scalar c =>
      if c = quote ∨ c = '\\' then ['\\', c]
      else if c = '\t' then ['\\', 't']
      else if c = '\n' then ['\\', 'n']
      else if c = '\r' then ['\\', 'r']
      else if c.toNat < 0x20 ∨ c.toNat = 0x7F then escaped c.toNat
      else if c.toNat < 0x7F ∨ printing.isPrintable c then [c]
      else escaped c.toNat

/-- `repr(s)`. -/
def quoted (s : JsonText) : JsonText :=
  let quote : Char :=
    if .scalar '\'' ∈ s ∧ .scalar '"' ∉ s then '"' else '\''
  (quote :: s.flatMap (quotedChar printing quote) ++ [quote]).map .scalar

/-- The entries of a `dict`: a key stays where it was first, with its last
value. -/
def dict {V : Type} (entries : List (JsonText × V)) : List (JsonText × V) :=
  entries.foldl (fun d e =>
    if d.any fun e' => e'.1 = e.1 then
      d.map fun e' => if e'.1 = e.1 then e else e'
    else d ++ [e]) []

/-- The text of a list or of a `dict`. -/
def bracketed (first last : String) (parts : List JsonText) : JsonText :=
  .ofString first ++ List.intercalate (JsonText.ofString ", ") parts ++
    .ofString last

mutual

/-- `repr(v)`; a number that Python did not read has no text, and the document
is not read then. -/
def repr : JsonValue → JsonText
  | .null => .ofString "None"
  | .bool b => .ofString (if b then "True" else "False")
  | .number numeral => .ofString ((printing.pyNumber numeral).getD "")
  | .string s => quoted printing s
  | .array elems => bracketed "[" "]" (reprs elems)
  | .object members =>
      bracketed "\x7b" "\x7d" ((dict (reprMembers members)).map Prod.snd)

def reprs : List JsonValue → List JsonText
  | [] => []
  | v :: elems => repr v :: reprs elems

def reprMembers : List (JsonText × JsonValue) → List (JsonText × JsonText)
  | [] => []
  | (k, v) :: members =>
      (k, quoted printing k ++ .ofString ": " ++ repr v) :: reprMembers members

end

/-- `str(v)`. -/
def str (v : JsonValue) : JsonText :=
  match v with
  | .string s => s
  | v => repr printing v

mutual

/-- Python reads every number of the document. -/
def readable : JsonValue → Bool
  | .number numeral => (printing.pyNumber numeral).isSome
  | .array elems => readableAll elems
  | .object members => readableMembers members
  | _ => true

def readableAll : List JsonValue → Bool
  | [] => true
  | v :: elems => readable v && readableAll elems

def readableMembers : List (JsonText × JsonValue) → Bool
  | [] => true
  | m :: members => readable m.2 && readableMembers members

end

end

end Py

end Vexil.Lib
