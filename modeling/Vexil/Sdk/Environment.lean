import Vexil.Sdk.Client

/-!
# The environment of a process

An SDK looks a variable up by its name, or goes through all of them in an order
it does not choose. `entries` is what Node and Python go through; Go gets each
variable as one text and takes it apart again at the first `=`, which is why no
name may have one.
-/

namespace Vexil.Sdk

open Vexil.Lib

/-- The environment of a process; no variable has a `=` in its name. -/
structure Environment where
  vars : GoMap String
  noEquals : ∀ k ∈ vars, '=' ∉ k.toList

namespace Environment

/-- The variables with their values, in the order `ks`. -/
def entries (env : Environment) (ks : List String) : List (String × String) :=
  ks.map fun k => (k, env.vars.index k)

/-- `os.Environ()`. -/
def environ (env : Environment) (ks : List String) : List String :=
  (env.entries ks).map fun kv => kv.1 ++ "=" ++ kv.2

end Environment

/-- `envProvider.GetAllFlags`. -/
def envGetAllFlags (environ : List String) : List Flag :=
  environ.filterMap fun env =>
    match splitN2 env '=' with
    | [key, val] =>
        if hasPrefix key "FLAG_" then some {
          name := toLower (replaceAll (trimPrefix key "FLAG_") '_' '-')
          type := "string"
          value := val }
        else none
    | _ => none

end Vexil.Sdk
