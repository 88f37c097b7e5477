import Vexil.Lib.Numeral
import Vexil.Sdk.Environment

/-!
# The Python SDK

`sdks/python`. As in Node a flag that is not there is `None`. A number is what
the built-in `int` makes of the whole value: it lets white space stand around
the digits and single underscores between them, it takes the decimal digits of
every script, which are the interpreter's Unicode tables, and it refuses a text
with more digits than the interpreter is set to take.
-/

namespace Vexil.Sdk.Python

open Vexil.Lib

/-- What an interpreter brings along: the value of each character its Unicode
version has as a decimal digit, and `sys.int_max_str_digits`, where 0 is no
limit. -/
structure Interpreter where
  decimal : Char → Option (Fin 10)
  maxStrDigits : Nat

/-- `_get_flag`, at one moment. -/
abbrev Provider := String → Option Flag

/-! ## Environment variables -/

def flagNameToEnv (name : String) : String :=
  "FLAG_" ++ replaceAll (toUpper name) '-' '_'

def getEnv (env : GoMap String) : Provider := fun name =>
  match env.lookup (flagNameToEnv name) with
  | none => none
  | some value => some { name := name, type := "string", value := value }

/-- `_all_env`, over what `os.environ.items()` gives. -/
def allEnv (items : List (String × String)) : List Flag :=
  items.filterMap fun kv =>
    if hasPrefix kv.1 "FLAG_" then some {
      name := replaceAll (toLower (dropBytes kv.1 5)) '_' '-'
      type := "string"
      value := kv.2 }
    else none

/-! ## The client -/

/-- White space in ASCII. -/
def isSpaceAscii (c : Char) : Bool :=
  (9 ≤ c.toNat ∧ c.toNat ≤ 13) ∨ c.toNat = 0x20

def digitChar (d : Fin 10) : Char := Char.ofNat ('0'.toNat + d)

variable (py : Interpreter)

/-- Outside ASCII, white space becomes a blank and a decimal digit its ASCII
form; anything else ends the text with a `?`. -/
def spacesAndDigits : List Char → List Char
  | [] => []
  | c :: cs =>
      if c.toNat < 127 then c :: spacesAndDigits cs
      else if isSpace c then ' ' :: spacesAndDigits cs
      else
        match py.decimal c with
        | some d => digitChar d :: spacesAndDigits cs
        | none => ['?']

/-- A text that is ASCII stays as it is. -/
def decimalAndSpaceToAscii (cs : List Char) : List Char :=
  if cs.all fun c => c.toNat < 128 then cs else spacesAndDigits py cs

/-- `int(s)`, where `none` is a `ValueError`. -/
def parseInt (s : String) : Option Int :=
  let cs := (decimalAndSpaceToAscii py s.toList).dropWhile isSpaceAscii
  let number (c : Char) : Bool := c.isDigit ∨ c = '_'
  let body := (splitSign cs).2.takeWhile number
  let trailing := (splitSign cs).2.dropWhile number
  let ds := body.filter Char.isDigit
  if (∀ g ∈ body.splitOn '_', g ≠ []) ∧
      (py.maxStrDigits = 0 ∨ ds.length ≤ py.maxStrDigits) ∧
      trailing.all isSpaceAscii then
    some (withSign (splitSign cs).1 (spell ds))
  else none

structure Client where
  provider : Provider

namespace Client

def bool (c : Client) (name : String) (default : Bool) : Bool :=
  match c.provider name with
  | none => default
  | some flag =>
      if flag.disabled then default
      else toLower flag.value ∈ ["true", "1", "yes"]

def int (c : Client) (name : String) (default : Int) : Int :=
  match c.provider name with
  | none => default
  | some flag =>
      if flag.disabled then default
      else (parseInt py flag.value).getD default

end Client

end Vexil.Sdk.Python
