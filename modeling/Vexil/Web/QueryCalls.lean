import Vexil.Lib.Query
import Vexil.Lib.Trim
import Vexil.Web.ApiClient

/-!
# The calls of the console that have a query

`api-client.ts`: the lists are asked for through `URLSearchParams`, while the
calls on one flag, and the list of the workloads, put a value behind its name as
it is. Then the browser parses what it was given as a URL, and so does the proxy
on the way; the server reads the query of what it gets.
-/

namespace Vexil.Web

open Vexil.Lib Vexil.Kube Vexil.Server

/-! ## The calls -/

/-- Bytes below 128 as text. -/
def asciiText (bs : List UInt8) : String :=
  String.ofList (bs.map fun b => Char.ofNat b.toNat)

/-- `if (value) search.set(name, value)`, for one name after another. -/
def searchParams (params : List (String × Option String)) :
    List (List UInt8 × List UInt8) :=
  params.filterMap fun p =>
    (p.2.filter (· ≠ "")).map fun value =>
      (Utf8.encode p.1, Utf8.encode value)

/-- `${path}${qs ? `?${qs}` : ''}`. -/
def withSearch (path : String) (params : List (String × Option String)) :
    String :=
  let qs := asciiText (formString (searchParams params))
  if qs = "" then path else path ++ "?" ++ qs

namespace flagsApi

def listParams (clusterId ns : Option String) :
    List (String × Option String) :=
  [("clusterId", clusterId), ("namespace", ns)]

def list (clusterId ns : Option String) : ApiCall :=
  ⟨"GET", withSearch "/flags" (listParams clusterId ns)⟩

def get (ns name clusterId : String) : ApiCall :=
  ⟨"GET", "/flags/" ++ ns ++ "/" ++ name ++ "?clusterId=" ++ clusterId⟩

def update (ns name clusterId : String) : ApiCall :=
  ⟨"PUT", "/flags/" ++ ns ++ "/" ++ name ++ "?clusterId=" ++ clusterId⟩

def delete (ns name clusterId : String) : ApiCall :=
  ⟨"DELETE", "/flags/" ++ ns ++ "/" ++ name ++ "?clusterId=" ++ clusterId⟩

def toggle (ns name clusterId : String) : ApiCall :=
  ⟨"POST", "/flags/" ++ ns ++ "/" ++ name ++ "/toggle?clusterId=" ++ clusterId⟩

end flagsApi

namespace workloadsApi

def list (clusterId ns : String) : ApiCall :=
  ⟨"GET", "/clusters/" ++ clusterId ++ "/workloads" ++
    if ns = "" then "" else "?namespace=" ++ ns⟩

end workloadsApi

namespace auditApi

def listParams (resource action cluster : Option String) :
    List (String × Option String) :=
  [("resource", resource), ("action", action), ("cluster", cluster)]

def list (resource action cluster : Option String) : ApiCall :=
  ⟨"GET", withSearch "/audit" (listParams resource action cluster)⟩

end auditApi

/-! ## On the way -/

def isControlOrSpace (c : Char) : Bool := c.toNat ≤ 0x20

def isTabOrNewline (c : Char) : Bool := c = '\t' ∨ c = '\n' ∨ c = '\r'

/-- What the parser of URLs begins with: no controls at the ends, and no tab and
no newline anywhere. -/
def urlText (input : List Char) : List Char :=
  (trimBy isControlOrSpace input).filter fun c => ¬ isTabOrNewline c

/-- What is between the first `?` and the first `#`, if they come in this
order. -/
def queryText (url : List Char) : List Char :=
  match url.dropWhile fun c => c ≠ '?' ∧ c ≠ '#' with
  | '?' :: rest => rest.takeWhile fun c => c ≠ '#'
  | _ => []

/-- The query of the URL that is fetched. -/
def ApiCall.rawQuery (c : ApiCall) : List UInt8 :=
  urlQuery (Utf8.encode
    (String.ofList (queryText (urlText (apiBase ++ c.path).toList))))

/-- The request that the server gets for a call. A text of Go is the bytes of
it. -/
structure ApiCall.Arrives (c : ApiCall) (r : Request) : Prop where
  method : r.method = c.method
  path : r.url.escapedPath = c.urlPath
  query : ∀ key, Utf8.encode (r.query key) =
    queryGet c.rawQuery (Utf8.encode key)

end Vexil.Web
