import Vexil.Lib.Numeral
import Vexil.Sdk.Client

/-!
# The .NET SDK

`sdks/dotnet`. The typed getters are `TryParse`, with the caller's default when
it fails. Of a Boolean and of a number it takes white space around the text,
and zero characters after it; a number is one of 32 bits. The number signs are
those of the invariant culture.
-/

namespace Vexil.Sdk.Dotnet

open Vexil.Lib

/-- `IFlagProvider.GetFlag`, at one moment. -/
abbrev Provider := String → Option Flag

/-! ## Environment variables -/

def flagNameToEnvVar (name : String) : String :=
  "FLAG_" ++ replaceAll (toUpper name) '-' '_'

/-- `EnvProvider.GetFlag`. -/
def envProvider (env : GoMap String) : Provider := fun name =>
  match env.lookup (flagNameToEnvVar name) with
  | none => none
  | some value => some { name := name, type := "string", value := value }

/-! ## The client -/

/-- White space or a zero character. -/
def isSpaceOrNull (c : Char) : Bool := isSpace c ∨ c.toNat = 0

/-- `TrimWhiteSpaceAndNull`. -/
def trimWhiteSpaceAndNull (s : String) : String :=
  String.ofList
    ((s.toList.dropWhile isSpaceOrNull).reverse.dropWhile isSpaceOrNull).reverse

/-- `bool.TryParse`. -/
def boolTryParse (s : String) : Option Bool :=
  if toLower (trimWhiteSpaceAndNull s) = "true" then some true
  else if toLower (trimWhiteSpaceAndNull s) = "false" then some false
  else none

/-- The white space around a number. -/
def isWhite (c : Char) : Bool :=
  (9 ≤ c.toNat ∧ c.toNat ≤ 13) ∨ c.toNat = 0x20

/-- `int.TryParse`. -/
def intTryParse (s : String) : Option Int :=
  let cs := s.toList.dropWhile isWhite
  let ds := (splitSign cs).2.takeWhile Char.isDigit
  let trailing := ((splitSign cs).2.dropWhile Char.isDigit).dropWhile isWhite
  if ds ≠ [] ∧ trailing.all fun c => c.toNat = 0 then
    (some (withSign (splitSign cs).1 (spell ds))).filter fun n => Int32Range n
  else none

structure VexilClient where
  provider : Provider

namespace VexilClient

def bool (c : VexilClient) (name : String) (defaultValue : Bool) : Bool :=
  match c.provider name with
  | none => defaultValue
  | some flag =>
      if flag.disabled then defaultValue
      else (boolTryParse flag.value).getD defaultValue

def int (c : VexilClient) (name : String) (defaultValue : Int) : Int :=
  match c.provider name with
  | none => defaultValue
  | some flag =>
      if flag.disabled then defaultValue
      else (intTryParse flag.value).getD defaultValue

end VexilClient

end Vexil.Sdk.Dotnet
