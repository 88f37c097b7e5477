import Vexil.Lib.Numeral
import Vexil.Sdk.Environment

/-!
# The Node SDK

`sdks/node`. A provider has a flag or `null`; a getter gives the caller's
default for `null` and for a disabled flag. A number is what `parseInt` reads
off the front of the value. No letter outside ASCII has a lower case that is in
one of the words of `bool`, so there too the case of ASCII letters is enough.
-/

namespace Vexil.Sdk.Node

open Vexil.Lib

/-- `getFlag`, at one moment. -/
abbrev Provider := String → Option Flag

/-! ## Environment variables -/

def envName (name : String) : String :=
  "FLAG_" ++ replaceAll (toUpper name) '-' '_'

def getEnv (env : GoMap String) : Provider := fun name =>
  match env.lookup (envName name) with
  | none => none
  | some value => some { name := name, type := "string", value := value }

/-- `allEnv`, over what `Object.entries(process.env)` gives. -/
def allEnv (entries : List (String × String)) : List Flag :=
  (entries.filter fun kv => hasPrefix kv.1 "FLAG_").map fun kv => {
    name := replaceAll (toLower (dropBytes kv.1 5)) '_' '-'
    type := "string"
    value := kv.2 }

/-! ## The client -/

/-- The white space and the line terminators of JavaScript. -/
def isWhiteSpace (c : Char) : Bool :=
  c.toNat = 0xFEFF ∨ isSpace c ∧ c.toNat ≠ 0x85

/-- `parseInt(s, 10)`, where `none` is `NaN`. -/
def parseInt (s : String) : Option Int :=
  let cs := s.toList.dropWhile isWhiteSpace
  let ds := (splitSign cs).2.takeWhile Char.isDigit
  if ds = [] then none else some (withSign (splitSign cs).1 (spell ds))

structure Client where
  provider : Provider

namespace Client

def bool (c : Client) (name : String) (defaultVal : Bool) : Bool :=
  match c.provider name with
  | none => defaultVal
  | some flag =>
      if flag.disabled then defaultVal
      else toLower flag.value ∈ ["true", "1", "yes"]

def int (c : Client) (name : String) (defaultVal : Int) : Int :=
  match c.provider name with
  | none => defaultVal
  | some flag =>
      if flag.disabled then defaultVal
      else (parseInt flag.value).getD defaultVal

end Client

end Vexil.Sdk.Node
