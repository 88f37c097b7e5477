import Vexil.Server.Calls

/-!
# The administrator of a server that starts

The part of `cmd/apiserver/main.go` before the server listens: the password of
the administrator is chosen and hashed, and the user `admin` is created or, when
the store has one from an earlier start, given the password. An error ends the
process with the text that is logged.
-/

namespace Vexil.Server

open Vexil.Lib

/-- The flag, else `VEXIL_ADMIN_PASSWORD`, else eight random bytes. -/
def adminPassword (flag env : String) : ServerProg (Except String String) :=
  if flag ≠ "" then .ret (.ok flag)
  else if env ≠ "" then .ret (.ok env)
  else
    .call (.randRead 8) fun
      | .error _ => .ret (.error "failed to generate admin password")
      | .ok b => .ret (.ok (hexEncode b))

section
variable [Bcrypt]

def createAdmin (password : String) : ServerProg (Except String Unit) :=
  .call (.generateFromPassword password) fun
    | .error _ => .ret (.error "failed to hash admin password")
    | .ok hash =>
        .call (.store (.createUser
            { username := "admin", passwordHash := hash, role := "admin" })) fun
          | .ok _ => .ret (.ok ())
          | .error err =>
              if contains err "already exists" then
                .call (.store (.updatePassword "admin" hash)) fun
                  | .error _ => .ret (.error "failed to update admin password")
                  | .ok _ => .ret (.ok ())
              else .ret (.error "failed to create admin user")

/-- All of it; the value is the password the administrator has now. -/
def bootstrap (flag env : String) : ServerProg (Except String String) :=
  (adminPassword flag env).bind fun
    | .error err => .ret (.error err)
    | .ok password =>
        (createAdmin password).bind fun
          | .error err => .ret (.error err)
          | .ok _ => .ret (.ok password)

end

end Vexil.Server
