import Mathlib.Logic.Function.Basic
import Vexil.Server.Accounts
import Vexil.Web.ApiClient

/-!
# The console, signed in

`auth.ts`, and what the sign-in page, the sign-out button and `request` of
`api-client.ts` do with it. The tabs of one browser share the local storage, and
each has a store of its own that it read from there when it was loaded. A
request takes its token from the storage, the sign-out from the store of the
tab; what a tab shows of the user is in its store.

Requests and their responses are on the way for some time, and may be lost.
Meanwhile other tabs go on, and so does the rest of the world with the server. A
tab that is closed or loaded again does not see the responses it waited for.
-/

namespace Vexil.Web

open Vexil.Lib Vexil.Kube Vexil.Server

/-- `vexil-token` and `vexil-user` in the storage, or `token` and `user` in the
store of a tab. The user is kept as the text of its JSON there and is the same
when it is read. -/
structure Kept where
  token : Option String := none
  user : Option MeResponse := none
  deriving DecidableEq

/-- What a request is made for. -/
inductive Purpose where
  /-- `authApi.login`. -/
  | signIn
  /-- `authApi.logout`. -/
  | signOut
  /-- `request`. -/
  | ask
  deriving DecidableEq

/-- A request of a tab, and the response once the server has given one. -/
structure Fetch (ι : Type) where
  tab : ι
  purpose : Purpose
  request : Request
  response : Option Response := none

structure Console (ι : Type) where
  storage : Kept := {}
  tabs : ι → Option Kept := fun _ => none
  fetches : List (Fetch ι) := []

/-- `Authorization` of a request with this token; none with `null`, and none
with an empty one. -/
def authorizationOf (token : Option String) : String :=
  match token with
  | none => ""
  | some t => if t = "" then "" else "Bearer " ++ t

namespace Console

variable {ι : Type} [DecidableEq ι]

/-- The tab is gone, and with it what it waited for. -/
def close (i : ι) (c : Console ι) : Console ι where
  storage := c.storage
  tabs := Function.update c.tabs i none
  fetches := c.fetches.filter fun x => x.tab ≠ i

/-- `useAuth` is created from the storage. -/
def load (i : ι) (c : Console ι) : Console ι :=
  { c.close i with tabs := Function.update c.tabs i (some c.storage) }

def setAuth (i : ι) (token : String) (user : MeResponse) (c : Console ι) :
    Console ι :=
  { c with
    storage := ⟨some token, some user⟩
    tabs := Function.update c.tabs i (some ⟨some token, some user⟩) }

def logout (i : ι) (c : Console ι) : Console ι :=
  { c with storage := {}, tabs := Function.update c.tabs i (some {}) }

/-- What `request` does about a 401. The tab also goes to the sign-in page,
which is another document: it is loaded again some time after this. -/
def unauthorized (c : Console ι) : Console ι := { c with storage := {} }

/-- What a tab may send. -/
def MayStart (c : Console ι) (x : Fetch ι) : Prop :=
  x.response = none ∧ ∃ tab, c.tabs x.tab = some tab ∧
    match x.purpose with
    | .signIn => Goes x.request "POST" loginPath ∧ x.request.authorization = ""
    | .signOut => Goes x.request "POST" logoutPath ∧ ∃ t, tab.token = some t ∧
        t ≠ "" ∧ x.request.authorization = "Bearer " ++ t
    | .ask => x.request.authorization = authorizationOf c.storage.token

/-- What a tab does with a response. Whatever the answer to a sign-out is, the
tab signs out. -/
def arrived (x : Fetch ι) (resp : Response) (c : Console ι) : Console ι :=
  match x.purpose with
  | .signIn =>
      if 200 ≤ resp.status ∧ resp.status ≤ 299 then
        match resp.body with
        | .login token user => c.setAuth x.tab token user
        | _ => c
      else c
  | .signOut => c.logout x.tab
  | .ask => if resp.status = 401 then c.unauthorized else c

/-- What a tab does when there is none: an error is shown, or, signing out,
ignored. -/
def failed (x : Fetch ι) (c : Console ι) : Console ι :=
  match x.purpose with
  | .signOut => c.logout x.tab
  | .signIn | .ask => c

def drop (n : Nat) (c : Console ι) : Console ι :=
  { c with fetches := c.fetches.eraseIdx n }

def answered (n : Nat) (x : Fetch ι) (resp : Response) (c : Console ι) :
    Console ι :=
  { c with fetches := c.fetches.set n { x with response := some resp } }

end Console

/-- What happens to a console and its server. The `n`-th fetch is `served`,
gets `lost` on the way there or back, or `arrives`; `leave` is the sign-out of a
tab that has no token to sign out with. What a tab does with the storage at one
of these moments it does without another in between. -/
inductive ConsoleAct (ι : Type) where
  | load (i : ι)
  | close (i : ι)
  | leave (i : ι)
  | start (x : Fetch ι)
  | served (n : Nat) (req : Request) (resp : Response)
  | lost (n : Nat)
  | arrives (n : Nat)
  | elsewhere (o : Occurrence)

/-- What the server sees of it. -/
def ConsoleAct.occurrence {ι : Type} : ConsoleAct ι → Option Occurrence
  | .served _ req resp => some (.served req resp)
  | .elsewhere o => some o
  | _ => none

section
variable {ι : Type} [DecidableEq ι] [Bcrypt] [ClientGo] [Apimachinery]

/-- The system: the server, and the console in one browser. -/
def ConsoleStep (origins : String) (st : ServerState × Console ι) :
    ConsoleAct ι → ServerState × Console ι → Prop
  | .load i, st' => st' = (st.1, st.2.load i)
  | .close i, st' => st' = (st.1, st.2.close i)
  | .leave i, st' => ∃ tab, st.2.tabs i = some tab ∧
      (tab.token = none ∨ tab.token = some "") ∧ st' = (st.1, st.2.logout i)
  | .start x, st' => st.2.MayStart x ∧
      st' = (st.1, { st.2 with fetches := st.2.fetches ++ [x] })
  | .served n req resp, st' => ∃ x, st.2.fetches[n]? = some x ∧
      x.response = none ∧ x.request = req ∧
      Occurs origins st.1 (.served req resp) st'.1 ∧
      st'.2 = st.2.answered n x resp
  | .lost n, st' => ∃ x, st.2.fetches[n]? = some x ∧
      st' = (st.1, (st.2.drop n).failed x)
  | .arrives n, st' => ∃ x resp, st.2.fetches[n]? = some x ∧
      x.response = some resp ∧ st' = (st.1, (st.2.drop n).arrived x resp)
  | .elsewhere o, st' => Occurs origins st.1 o st'.1 ∧ st'.2 = st.2

end

end Vexil.Web
