import Vexil.Lib.Lines
import Vexil.Sdk.Client

/-!
# The event stream, from the sidecar to the SDK

What the handler of `GET /flags/stream` writes for each flag it receives, and
what `streamUpdates` of the Go SDK makes of the bytes of one connection. An
event is three lines, `event: update`, `data:` and the flag as JSON, and an
empty one; the reader takes every line by itself and looks at those that start
with `data:`.
-/

namespace Vexil.Sdk

open Vexil.Lib Vexil.Sidecar

/-- `json.Marshal` of a `resolvedFlag` and `json.Unmarshal` into a `Flag`. -/
class FlagJson where
  marshal : ResolvedFlag → List Char
  unmarshal : List Char → Option Flag

section
variable [FlagJson]

def eventLine : List Char := "event: update".toList

def dataPrefix : List Char := "data: ".toList

/-- `fmt.Fprintf(w, "event: update\ndata: %s\n\n", data)`. -/
def writeEvent (f : ResolvedFlag) : List Char :=
  eventLine ++ '\n' :: (dataPrefix ++ FlagJson.marshal f ++ ['\n', '\n'])

/-- All the handler writes on a connection after the headers. -/
def writeStream (fs : List ResolvedFlag) : List Char := fs.flatMap writeEvent

/-- One round of the loop over the lines: the flag that is stored, if any. -/
def readLine (line : List Char) : Option Flag :=
  if dataPrefix.isPrefixOf line then
    FlagJson.unmarshal (line.drop dataPrefix.length)
  else none

/-- What `streamUpdates` stores while it reads a connection, in order. An error
of the scanner ends the loop like the end of the stream. -/
def streamUpdates (text : List Char) : List Flag :=
  (scanLines text).filterMap readLine

end

end Vexil.Sdk
