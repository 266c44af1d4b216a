/-
What becomes of the reports of runners. A report moves its pipeline forward or changes nothing, so
it does no harm to hear it twice, late or out of order; a status is shown beside the commit once it
has been kept.
-/
import Pipeworks.Coordinator.Call
import Pipeworks.Pipeline.Report

namespace Pipeworks.Coordinator

inductive ReportFault where
  | pipelineNotFound (id : Int64)
  | storage (f : Storage.Fault)
  deriving DecidableEq

def ReportFault.message : ReportFault → String
  | .pipelineNotFound id => "pipeline " ++ toString id.toInt ++ " not found"
  | .storage f => f.message

/-- Shows a status that has just been kept. That the provider does not take it is no fault. -/
def publish (setup : Setup) (id : Int64) (status : Status) (description : String) :
    Service (Except ReportFault Unit) := do
  match ← storage (.stateChangeInfo id) with
  | .error f => pure (.error (.storage f))
  | .ok none => pure (.error (.pipelineNotFound id))
  | .ok (some info) =>
    match Provider.ofName? setup.providers info.provider with
    | none => pure (.ok ())
    | some provider =>
      let _ ← post provider info.token ⟨info.owner, info.repoName, info.commit, status, info.url,
        setup.settings.statusContext, description⟩
      pure (.ok ())

/-- Tells a report that changes nothing from one about no pipeline. -/
def skip (id : Int64) : Service (Except ReportFault Unit) := do
  match ← storage (.find id) with
  | .error f => pure (.error (.storage f))
  | .ok none => pure (.error (.pipelineNotFound id))
  | .ok (some _) => pure (.ok ())

/-- A run has started. -/
def started (setup : Setup) (r : Started) : Service (Except ReportFault Unit) := do
  match ← storage (.start r.pipelineId r.startedAt) with
  | .error f => pure (.error (.storage f))
  | .ok false => skip r.pipelineId
  | .ok true => publish setup r.pipelineId .running "Pipeline is running"

/-- What is said of a run that has ended: of a failure, its category only. -/
def Finished.description (r : Finished) : String :=
  match r.outcome, r.error with
  | .success, _ => "Pipeline succeeded"
  | .failure, some e => e.category.description
  | .failure, none => "Pipeline failed"

/-- A run has ended. -/
def finished (setup : Setup) (r : Finished) : Service (Except ReportFault Unit) := do
  let status := r.outcome.status
  match ← storage (.finish r.pipelineId status r.finishedAt) with
  | .error f => pure (.error (.storage f))
  | .ok false => skip r.pipelineId
  | .ok true => publish setup r.pipelineId status (Finished.description r)

/-- A command has been run. Of two entries of the same order the first one stays. -/
def commandOutput (r : CommandOutput) : Service (Except ReportFault Unit) := do
  match ← storage (.find r.pipelineId) with
  | .error f => pure (.error (.storage f))
  | .ok none => pure (.error (.pipelineNotFound r.pipelineId))
  | .ok (some _) =>
    match ← storage (.addLog r.logEntry) with
    | .error f => pure (.error (.storage f))
    | .ok _ => pure (.ok ())

/-- Takes in any report. -/
def hear (setup : Setup) : Report → Service (Except ReportFault Unit)
  | .started r => started setup r
  | .output r => commandOutput r
  | .finished r => finished setup r

end Pipeworks.Coordinator
