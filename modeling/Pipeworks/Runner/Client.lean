/-
How a runner reports to the coordinator: every report is posted as JSON, and any reply of success
acknowledges it.
-/
import Pipeworks.Http.Exchange
import Pipeworks.Pipeline.Wire
import Pipeworks.Text.Blank
import Pipeworks.Url.Reader

namespace Pipeworks.Runner

inductive ClientFault where
  /-- The request did not get through. -/
  | requestFailed
  /-- The coordinator refused. -/
  | refused (status : Nat) (message : String)
  deriving DecidableEq

namespace ClientFault

/-- What a refusal says; a request that failed has only its kind. -/
def message : ClientFault → String
  | .requestFailed => "HTTP request failed"
  | .refused status message => "API error (status " ++ toString status ++ "): " ++ message

def isNotFound : ClientFault → Bool
  | .refused 404 _ => true
  | _ => false

end ClientFault

/-- A client of the coordinator, by the address that its paths are appended to. -/
structure Client where
  baseUrl : String

namespace Client

/-- The client for an address, whose slashes at the end do not count. -/
def ofUrl (url : String) : Client := ⟨Text.withoutTrailing '/' url⟩

/-- The request that carries a report; none if there is no such address on the web. -/
def request? (c : Client) (r : Report) : Option Http.Request :=
  match Url.ofText (c.baseUrl ++ r.path) with
  | .error _ => none
  | .ok url =>
    if url.scheme == "http" || url.scheme == "https" then some ⟨.post, url, [], some r.toJson⟩
    else none

/-- Sends a report. -/
def send (network : Http.Network) (c : Client) (r : Report) : Except ClientFault Unit :=
  match (c.request? r).bind network with
  | none => .error .requestFailed
  | some reply =>
    if reply.isSuccess then .ok () else .error (.refused reply.status reply.text)

end Client

/-- What is said of a report that was not delivered. -/
def undelivered : Report → String
  | .started _ => "Failed to report pipeline start"
  | .finished _ => "Failed to report pipeline result"
  | .output _ => "Failed to report command output"

end Pipeworks.Runner
