/-
What can be looked up about a pipeline: its record with its log, and the transcript of its run.
-/
import Pipeworks.Coordinator.Call

namespace Pipeworks.Coordinator

inductive LookupFault where
  | notFound (id : Int64)
  | noTranscript (id : Int64)
  | storage (f : Storage.Fault)
  /-- The transcript is there, or may be, but cannot be opened. -/
  | transcript (f : Transcript.Fault)
  deriving DecidableEq

def LookupFault.message : LookupFault → String
  | .notFound id => "pipeline " ++ toString id.toInt ++ " not found"
  | .noTranscript id => "no log stored for pipeline " ++ toString id.toInt
  | .storage f => f.message
  | .transcript f => "blob store error: " ++ f.message

/-- A pipeline with its log. -/
def details (id : Int64) : Service (Except LookupFault PipelineDetails) := do
  match ← storage (.find id) with
  | .error f => pure (.error (.storage f))
  | .ok none => pure (.error (.notFound id))
  | .ok (some p) =>
    match ← storage (.logs id) with
    | .error f => pure (.error (.storage f))
    | .ok logs => pure (.ok ⟨p, logs⟩)

/-- What the run of a pipeline wrote. -/
def openLog (id : Int64) : Service (Except LookupFault Bytes) := do
  match ← transcript id with
  | .error (.notStored id) => pure (.error (.noTranscript id))
  | .error f => pure (.error (.transcript f))
  | .ok content => pure (.ok content)

end Pipeworks.Coordinator
