/-
Reports over HTTP. A report that is posted as a runner posts it is read as it was written and heard
(`answerRunner_posted`), provided that its body is within the limit; so it does what it would do if it were
heard at once, and it is acknowledged exactly if it is heard without fault.
-/
import Pipeworks.Coordinator.Router
import Pipeworks.Proofs.Coordinator.Memory
import Pipeworks.Proofs.Pipeline.Report
import Pipeworks.Runner.Client

namespace Pipeworks

open Http (Arrival)

/-- The body of the report is within the limit. -/
def Report.Fits (r : Report) : Prop := (Text.bytes r.toJson.text).length ≤ Http.maxBody

theorem Report.fits_of_chars {r : Report} (h : 4 * r.toJson.chars.length ≤ Http.maxBody) : r.Fits := by
  unfold Report.Fits Text.bytes Json.Value.text
  rw [String.toList_ofList]
  exact Nat.le_trans (Utf8.length_encode_le _) h

theorem Http.longerThan_iff {α : Type} (n : Nat) (as : List α) : longerThan n as = true ↔ n < as.length := by
  induction as generalizing n with
  | nil => simp [longerThan]
  | cons a as ih =>
    cases n with
    | zero => simp [longerThan]
    | succ n => simpa [longerThan] using ih n

theorem Http.limitedBody_of_fits {a : Arrival} (h : a.body.length ≤ maxBody) : a.limitedBody = .ok a.body := by
  unfold Arrival.limitedBody
  rw [if_neg fun hlong => Nat.not_lt.2 h ((longerThan_iff _ _).1 hlong)]

theorem Http.declareJson_contentType :
    Headers.declareJson [(Text.bytes "content-type", Text.bytes "application/json")] := by
  decide +kernel

/-- A body that is written as JSON and declared so is read as what it stands for. -/
theorem Http.jsonBody_written {α : Type} {a : Arrival} {v : Json.Value} {read : Json.Node → Except Json.Fault α}
    {x : α} (hjson : a.headers.declareJson) (hbody : a.body = Text.bytes v.text)
    (hfits : a.body.length ≤ maxBody) (hread : read v.node = .ok x) : a.jsonBody read = .ok x := by
  have hdocument : (Json.Document.ofBytes a.body).read read = .ok x := by
    rw [hbody, Json.ofBytes_bytes, Json.ofText_text]
    unfold Json.Document.read
    rw [hread]
    rfl
  unfold Arrival.jsonBody
  rw [if_pos hjson, limitedBody_of_fits hfits]
  simp only [bind, Except.bind, hdocument]

namespace Coordinator

/-- The request is the one that carries the report. -/
structure Posts (r : Report) (a : Arrival) : Prop where
  method : a.method = .post
  target : a.target = r.path
  json : a.headers.declareJson
  body : a.body = Text.bytes r.toJson.text

/-- What a report is answered. -/
def acknowledge : Except ReportFault Unit → Http.Response
  | .ok () => { status := 204 }
  | .error f => f.response

variable {setup : Setup} {r : Report} {a : Arrival}

theorem receiveReport_posted (h : Posts r a) (hfits : r.Fits) :
    receiveReport setup a r.reader = (hear setup r).bind fun answer => .done (acknowledge answer) := by
  have hread := Http.jsonBody_written h.json h.body (h.body ▸ hfits) r.read_toJson
  unfold receiveReport
  rw [hread]
  refine congrArg (hear setup r).bind (funext fun answer => ?_)
  cases answer <;> rfl

/-- The path of a report leads to where its kind is read. -/
theorem find?_reportRoutes (setup : Setup) (a : Arrival) (r : Report) :
    Route.find? (Http.pathSegments r.path) (reportRoutes setup a) =
      some (.post (receiveReport setup a r.reader)) := by
  have hstarted : Http.pathSegments Report.startedPath = ["", "rpc", "pipeline", "started"] := by decide
  have hfinished : Http.pathSegments Report.finishedPath = ["", "rpc", "pipeline", "finished"] := by decide
  have houtput : Http.pathSegments Report.outputPath = ["", "rpc", "pipeline", "output"] := by decide
  cases r <;>
    simp [Report.path, hstarted, hfinished, houtput, reportRoutes, healthRoute, reportRoute, Route.find?,
      Http.matchPath, Report.reader]

/-- A request that carries a report comes to where its kind is read. -/
theorem answerRunner_eq (h : Posts r a) : answerRunner setup a = receiveReport setup a r.reader := by
  unfold answerRunner answer
  rw [h.target, find?_reportRoutes]
  show Endpoint.respond (.post (receiveReport setup a r.reader)) a.method = _
  rw [h.method]
  rfl

/-- A report that is posted is heard. -/
theorem answerRunner_posted (h : Posts r a) (hfits : r.Fits) :
    answerRunner setup a = (hear setup r).bind fun answer => .done (acknowledge answer) :=
  (answerRunner_eq h).trans (receiveReport_posted h hfits)

theorem acknowledge_isSuccess (answer : Except ReportFault Unit) :
    (200 ≤ (acknowledge answer).status ∧ (acknowledge answer).status < 300) ↔ answer = .ok () := by
  cases answer with
  | ok => simp [acknowledge]
  | error f =>
    -- no fault is answered with a status of success
    cases f <;> simp [acknowledge, ReportFault.response, errorResponse, internalError, Http.Response.ofJson]

end Coordinator

end Pipeworks
