import Vexil.Web.Console

/-!
# What the console offers

The pages behind the sidebar, and the buttons that `flags/page.tsx`,
`clusters/page.tsx` and `settings/page.tsx` show or hide by the user in the
store of the tab. Each page does this for itself, with `isAdmin` and `canEdit`; the
server has a table of its own (`routes`).
-/

namespace Vexil.Web

open Vexil.Lib Vexil.Kube Vexil.Server

/-- What the user of a tab can ask for: to see a page, by its request for what
is on it, or to use a button. The buttons of a row come with its name. -/
inductive Control where
  | flagsPage
  | clustersPage
  | workloadsPage
  | auditPage
  | usersPanel
  | createFlag
  | editFlag
  | toggleFlag
  | deleteFlag
  | registerCluster
  | removeCluster
  | createUser
  | editUser (row : String)
  | deleteUser (row : String)
  deriving DecidableEq

def isAdmin (user : Option MeResponse) : Bool :=
  user.map MeResponse.role = some "admin"

def canEdit (user : Option MeResponse) : Bool :=
  user.map MeResponse.role ≠ some "viewer"

/-- `u.username === currentUser?.username`. -/
def isSelf (user : Option MeResponse) (row : String) : Bool :=
  user.map MeResponse.username = some row

/-- Whether a control is on its page. The button that toggles is only there for
boolean flags, the one to edit a user is two buttons with one effect. A flag is
edited with a pencil, shown if `canEdit`, or with a click on its name, which
opens the same form for everybody. -/
def Control.shown (user : Option MeResponse) : Control → Bool
  | .flagsPage | .clustersPage | .workloadsPage | .auditPage
  | .usersPanel | .editFlag => true
  | .createFlag | .toggleFlag => canEdit user
  | .deleteFlag | .registerCluster | .removeCluster
  | .createUser => isAdmin user
  | .editUser row => isAdmin user || !isAdmin user && isSelf user row
  | .deleteUser row => isAdmin user && !isSelf user row

/-! ## The form for a user -/

/-- `editPassword`, `editRole` and `editOriginalRole`. -/
structure EditUserForm where
  password : String
  role : String
  originalRole : String
  deriving DecidableEq

def startEditing (role : String) : EditUserForm := ⟨"", role, role⟩

/-- What the form can hold. The role has an input for administrators only. -/
inductive EditUserForm.Reached (user : Option MeResponse) : EditUserForm → Prop
  | start (role : String) : Reached user (startEditing role)
  | typePassword (f : EditUserForm) (hf : Reached user f) (password : String) :
      Reached user { f with password := password }
  | selectRole (f : EditUserForm) (hf : Reached user f) (role : String)
      (hadmin : isAdmin user = true) : Reached user { f with role := role }

/-- `handleUpdate`, and what the server makes of a property that is not there.
Nothing is sent if there is nothing to change. -/
def handleUpdate (f : EditUserForm) : Option UpdateUserRequest :=
  let role := if f.role ≠ "" ∧ f.role ≠ f.originalRole then f.role else ""
  if f.password = "" ∧ role = "" then none
  else some { password := f.password, role := role }

/-! ## The requests -/

section
variable [Apimachinery] [Bcrypt]

/-- The handler of the route that a control's request is for. -/
def Control.handler : Control → Handler
  | .flagsPage => FlagHandler.list
  | .clustersPage => ClusterHandler.list
  | .workloadsPage => requireRole editorUp WorkloadHandler.list
  | .auditPage => listAudit
  | .usersPanel => AuthHandler.listUsers
  | .createFlag => requireRole editorUp FlagHandler.create
  | .editFlag => requireRole editorUp FlagHandler.update
  | .toggleFlag => requireRole editorUp FlagHandler.toggle
  | .deleteFlag => requireRole adminOnly FlagHandler.delete
  | .registerCluster => requireRole adminOnly ClusterHandler.register
  | .removeCluster => requireRole adminOnly ClusterHandler.remove
  | .createUser => requireRole adminOnly AuthHandler.createUser
  | .editUser _ => AuthHandler.updateUser
  | .deleteUser _ => requireRole adminOnly AuthHandler.deleteUser

def Control.method : Control → String
  | .flagsPage | .clustersPage | .workloadsPage | .auditPage
  | .usersPanel => "GET"
  | .createFlag | .toggleFlag | .registerCluster | .createUser => "POST"
  | .editFlag | .editUser _ => "PUT"
  | .deleteFlag | .removeCluster | .deleteUser _ => "DELETE"

/-- How the path given to `request` begins. -/
def Control.base : Control → String
  | .flagsPage | .createFlag | .editFlag | .toggleFlag | .deleteFlag => "/flags"
  | .clustersPage | .workloadsPage | .registerCluster
  | .removeCluster => "/clusters"
  | .auditPage => "/audit"
  | .usersPanel | .createUser | .editUser _ | .deleteUser _ => "/users"

/-- What else of a request matters to who may send it. -/
def Control.Fits (user : MeResponse) (req : Request)
    (pathValue : String → String) : Control → Prop
  | .editUser row => pathValue "username" = row ∧
      ∃ f data, EditUserForm.Reached (some user) f ∧
        handleUpdate f = some data ∧ req.body.updateUser = some data
  | .deleteUser row => pathValue "username" = row
  | _ => True

/-- The request is one this control makes for this user, and the router finds
what it is for. -/
structure Control.Sends (c : Control) (user : MeResponse) (req : Request) :
    Prop where
  method : req.method = c.method
  path : ∃ rest,
    req.url.escapedPath.toList = (apiBase ++ c.base).toList ++ rest
  routed : ∃ values,
    serveMux routes req.method req.url = .handler c.handler values ∧
    c.Fits user req (pathValue values)

end

end Vexil.Web
