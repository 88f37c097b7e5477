import Vexil.Server.Http

/-!
# Sign-in and users

`handlers/auth.go`. A handler that is not the right one for the caller's role
says so itself where the route table does not: `CreateUser`, `UpdateUser` and
`DeleteUser` look at the context that `Auth` filled.
-/

namespace Vexil.Server

open Vexil.Lib

/-- 24 hours, in nanoseconds. -/
def tokenExpiry : Nat := 24 * 60 * 60 * 10 ^ 9

def invalidBody : Response := writeError 400 "invalid request body"

def unauthorized : Response := writeError 401 "unauthorized"

/-- The roles a user may be given. -/
def roles : List String := ["admin", "editor", "viewer"]

namespace AuthHandler

def generateToken : ServerProg (Except String String) :=
  .call (.randRead 32) fun
    | .error err => .ret (.error err)
    | .ok b => .ret (.ok (hexEncode b))

/-- `Login` once the credentials are right. -/
def openSession (user : User) : ServerProg Response :=
  generateToken.bind fun
    | .error _ => .ret (writeError 500 "failed to generate token")
    | .ok token =>
        .call .now fun now =>
          .call (.store (.createSession token user.username user.role
              (now + tokenExpiry))) fun
            | .error _ => .ret (writeError 500 "failed to create session")
            | .ok _ => .ret (writeJSON 200
                (.login token ⟨user.username, user.role⟩))

def login [Bcrypt] : Handler := fun r _ _ =>
  match r.body.login with
  | none => .ret invalidBody
  | some req =>
      if req.username = "" ∨ req.password = "" then
        .ret (writeError 400 "username and password are required")
      else
        .call (.store (.getUserByUsername req.username)) fun
          | .error _ => .ret (writeError 401 "invalid credentials")
          | .ok user =>
              if Bcrypt.compareHashAndPassword user.passwordHash req.password then
                openSession user
              else .ret (writeError 401 "invalid credentials")

def logout : Handler := fun r _ _ =>
  let token := extractBearerToken r
  if token = "" then .ret unauthorized
  else
    .call (.store (.deleteSession token)) fun _ =>
      .ret (writeJSON 200 (.message "logged out"))

def me : Handler := fun r _ _ =>
  let token := extractBearerToken r
  if token = "" then .ret unauthorized
  else
    .call (.store (.getSession token)) fun
      | none => .ret unauthorized
      | some (username, role) => .ret (writeJSON 200 (.me ⟨username, role⟩))

def listUsers : Handler := fun _ _ _ =>
  .call (.store .listUsers) fun
    | .error _ => .ret (writeError 500 "failed to list users")
    | .ok users => .ret (writeJSON 200 (.users users))

def createUser : Handler := fun r ctx _ =>
  if ctx.role ≠ "admin" then
    .ret (writeError 403 "only admins can create users")
  else
    match r.body.createUser with
    | none => .ret invalidBody
    | some req =>
        if req.username = "" ∨ req.password = "" ∨ req.role = "" then
          .ret (writeError 400 "username, password, and role are required")
        else if req.role ∉ roles then
          .ret (writeError 400 "role must be admin, editor, or viewer")
        else
          .call (.generateFromPassword req.password) fun
            | .error _ => .ret (writeError 500 "failed to hash password")
            | .ok hash =>
                .call (.store (.createUser
                    { username := req.username
                      passwordHash := hash
                      role := req.role })) fun
                  | .error err => .ret (writeError 409 err)
                  | .ok _ => .ret (writeJSON 201 (.me ⟨req.username, req.role⟩))

/-- The part of `UpdateUser` about the role; `k` is what follows it. -/
def changeRole (target role : String) (k : ServerProg Response) :
    ServerProg Response :=
  if role = "" then k
  else if role ∉ roles then
    .ret (writeError 400 "role must be admin, editor, or viewer")
  else
    .call (.store (.updateUserRole target role)) fun
      | .error err => .ret (writeError 404 err)
      | .ok _ => k

/-- The part of `UpdateUser` about the password. -/
def changePassword (target password : String) (k : ServerProg Response) :
    ServerProg Response :=
  if password = "" then k
  else
    .call (.generateFromPassword password) fun
      | .error _ => .ret (writeError 500 "failed to hash password")
      | .ok hash =>
          .call (.store (.updatePassword target hash)) fun
            | .error err => .ret (writeError 404 err)
            | .ok _ => k

def updateUser : Handler := fun r ctx pathValue =>
  let target := pathValue "username"
  match r.body.updateUser with
  | none => .ret invalidBody
  | some req =>
      if ctx.role ≠ "admin" ∧ ctx.username ≠ target then
        .ret (writeError 403 "you can only update your own account")
      else if ctx.role ≠ "admin" ∧ req.role ≠ "" then
        .ret (writeError 403 "only admins can change roles")
      else
        changeRole target req.role <| changePassword target req.password <|
          .ret (writeJSON 200 (.message "user updated"))

def deleteUser : Handler := fun _ ctx pathValue =>
  let target := pathValue "username"
  if ctx.role ≠ "admin" then
    .ret (writeError 403 "only admins can delete users")
  else if ctx.username = target then
    .ret (writeError 400 "cannot delete yourself")
  else
    .call (.store (.deleteUser target)) fun
      | .error err => .ret (writeError 404 err)
      | .ok _ => .ret (writeJSON 200 (.message "user deleted"))

end AuthHandler

end Vexil.Server
