/-
The two routers of the coordinator: the public one takes deliveries and answers lookups, the other
one takes the reports of runners.
-/
import Pipeworks.Coordinator.Hook
import Pipeworks.Coordinator.Lookup
import Pipeworks.Coordinator.Report
import Pipeworks.Http.Server
import Pipeworks.Pipeline.Wire

namespace Pipeworks.Coordinator

open Http (Arrival Response Refusal Piece)

/-! ## Faults as responses -/

def errorResponse (status : Nat) (message : String) : Response :=
  .ofJson status (.object [("error", .string message)])

/-- The response to what may not be told. -/
def internalError : Response := errorResponse 500 "Internal server error"

def HookFault.response (f : HookFault) : Response :=
  match f with
  | .unknownProvider _ => errorResponse 404 f.message
  | .unknownRepo _ => errorResponse 404 f.message
  | .invalidSignature => errorResponse 401 f.message
  | .invalidPayload _ => errorResponse 400 f.message
  | .unsupported _ => errorResponse 501 f.message
  | .archivedRepo _ => errorResponse 422 f.message
  | .dispatch _ => errorResponse 503 "Service temporarily unavailable"
  | .storage _ => internalError

def ReportFault.response (f : ReportFault) : Response :=
  match f with
  | .pipelineNotFound _ => errorResponse 404 f.message
  | .storage _ => internalError

def LookupFault.response (f : LookupFault) : Response :=
  match f with
  | .notFound _ => errorResponse 404 f.message
  | .noTranscript _ => errorResponse 404 f.message
  | .storage _ => internalError
  | .transcript _ => internalError

/-! ## Endpoints -/

def health : Response := .ofText 200 "OK"

def HookOutcome.response : HookOutcome → Response
  | .ping => .ofJson 200 (.object [("message", .string "pong")])
  | .ignored reason => .ofJson 202 (.object [("message", .string reason)])
  | .created p => .ofJson 201 (.object [("id", jsonInt64 p.id), ("url", .string p.url)])

/-- Takes in a delivery. -/
def receiveDelivery (setup : Setup) (a : Arrival) (segment : String) : Service Response :=
  let parts : Except Refusal (String × Bytes) := do
    let name ← Http.textParameter "provider" segment
    let body ← a.limitedBody
    .ok (name, body)
  match parts with
  | .error refusal => pure refusal.response
  | .ok (name, body) => do
    match ← accept setup name a.headers body with
    | .ok outcome => pure outcome.response
    | .error f => pure f.response

def showDetails (segment : String) : Service Response :=
  match Http.int64Parameter "id" segment with
  | .error refusal => pure refusal.response
  | .ok id => do
    match ← details id with
    | .ok d => pure (.ofJson 200 d.toJson)
    | .error f => pure f.response

def showLog (segment : String) : Service Response :=
  match Http.int64Parameter "id" segment with
  | .error refusal => pure refusal.response
  | .ok id => do
    match ← openLog id with
    | .ok content => pure (.ofBytes 200 content)
    | .error f => pure f.response

/-- Takes in a report, which is acknowledged without content. -/
def receiveReport (setup : Setup) (a : Arrival) (read : Json.Node → Except Json.Fault Report) :
    Service Response :=
  match a.jsonBody read with
  | .error refusal => pure refusal.response
  | .ok report => do
    match ← hear setup report with
    | .ok () => pure { status := 204 }
    | .error f => pure f.response

/-! ## Routes -/

/-- What a path leads to: an endpoint that is read, or one that something is sent to. -/
inductive Endpoint where
  | get (respond : Service Response)
  | post (respond : Service Response)

namespace Endpoint

/-- Answers a request by its method. -/
def respond (e : Endpoint) (method : Http.Method) : Service Response :=
  match e, method with
  | .get r, .get => r
  | .get r, .head => do pure (← r).headOnly
  | .post r, .post => r
  | .get _, _ => pure { status := 405, allow := some "GET,HEAD" }
  | .post _, _ => pure { status := 405, allow := some "POST" }

end Endpoint

/-- A pattern of paths, and the endpoint for what is captured. -/
structure Route where
  pattern : List Piece
  endpoint : List String → Endpoint

def onlyCapture (f : String → Endpoint) : List String → Endpoint
  | [s] => f s
  | _ => f ""

def healthRoute : Route := ⟨[.fixed "", .fixed "health"], fun _ => .get (pure health)⟩

def publicRoutes (setup : Setup) (a : Arrival) : List Route := [
  healthRoute,
  ⟨[.fixed "", .fixed "hooks", .capture],
    onlyCapture fun provider => .post (receiveDelivery setup a provider)⟩,
  ⟨[.fixed "", .fixed "pipelines", .capture], onlyCapture fun id => .get (showDetails id)⟩,
  ⟨[.fixed "", .fixed "pipelines", .capture, .fixed "log"],
    onlyCapture fun id => .get (showLog id)⟩]

def reportRoute (setup : Setup) (a : Arrival) (path : String)
    (read : Json.Node → Except Json.Fault Report) : Route :=
  ⟨(Http.pathSegments path).map .fixed, fun _ => .post (receiveReport setup a read)⟩

def reportRoutes (setup : Setup) (a : Arrival) : List Route := [
  healthRoute,
  reportRoute setup a Report.startedPath fun n => (Started.read n).map .started,
  reportRoute setup a Report.finishedPath fun n => (Finished.read n).map .finished,
  reportRoute setup a Report.outputPath fun n => (CommandOutput.read n).map .output]

/-- The endpoint that a path leads to. -/
def Route.find? (segments : List String) : List Route → Option Endpoint
  | [] => none
  | r :: rs =>
    match Http.matchPath r.pattern segments with
    | some captured => some (r.endpoint captured)
    | none => Route.find? segments rs

/-- Answers a request by the first route that its path matches. -/
def answer (routes : List Route) (a : Arrival) : Service Response :=
  match Route.find? (Http.pathSegments a.target) routes with
  | some endpoint => endpoint.respond a.method
  | none => pure { status := 404 }

/-- Answers a request to the public. -/
def answerPublic (setup : Setup) (a : Arrival) : Service Response :=
  answer (publicRoutes setup a) a

/-- Answers a request by a runner. -/
def answerRunner (setup : Setup) (a : Arrival) : Service Response :=
  answer (reportRoutes setup a) a

end Pipeworks.Coordinator
