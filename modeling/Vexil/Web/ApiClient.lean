import Vexil.Server.Routes

/-!
# The API client of the console

`api-client.ts`, the calls on one user or one cluster: the method and the path
that each gives to `request`, and the URL that comes of it. A name is put into
the path as it is.
-/

namespace Vexil.Web

open Vexil.Lib Vexil.Kube Vexil.Server

/-- What `request` is called with; the body is left out. -/
structure ApiCall where
  method : String
  path : String
  deriving DecidableEq, Repr

/-- `API_BASE`, where it is not set: the path of it. -/
def apiBase : String := "/api/v1"

namespace usersApi

def update (username : String) : ApiCall := ⟨"PUT", "/users/" ++ username⟩

def delete (username : String) : ApiCall := ⟨"DELETE", "/users/" ++ username⟩

end usersApi

namespace clustersApi

def get (id : String) : ApiCall := ⟨"GET", "/clusters/" ++ id⟩

def remove (id : String) : ApiCall := ⟨"DELETE", "/clusters/" ++ id⟩

end clustersApi

/-- What a URL has before its query and its fragment. -/
def cut (s : String) : String :=
  String.ofList (s.toList.takeWhile fun c => c ≠ '?' ∧ c ≠ '#')

/-- The path of the URL that is fetched. -/
def ApiCall.urlPath (c : ApiCall) : String := cut (apiBase ++ c.path)

section
variable [Apimachinery] [Bcrypt]

/-- The call gets to a handler of the server, which reads a value for a wildcard
of its route. A path that does not decode is no URL. -/
def ApiCall.Reaches (c : ApiCall) (h : Handler) (wild value : String) : Prop :=
  ∃ (url : URL) (values : List (String × String)),
    url.escapedPath = c.urlPath ∧
    serveMux routes c.method url = .handler h values ∧
    pathValue values wild = value

end

end Vexil.Web
