/-
What a runner reports about a run: that it started, what each command wrote, and how it ended.
-/
import Pipeworks.Pipeline.Record

namespace Pipeworks

structure Started where
  pipelineId : Int64
  startedAt : Time.Instant
  deriving DecidableEq

/-- Why a run failed: its category, which may be published, and the raw message, which may not. -/
structure FailureSummary where
  category : FailureCategory
  message : String
  deriving DecidableEq

structure Finished where
  pipelineId : Int64
  finishedAt : Time.Instant
  outcome : Outcome
  error : Option FailureSummary
  deriving DecidableEq

structure CommandOutput where
  pipelineId : Int64
  order : Int32
  cmd : String
  output : String
  exitCode : Int32
  deriving DecidableEq

/-- The log entry of a report, in which NUL characters have no place. -/
def CommandOutput.logEntry (r : CommandOutput) : LogEntry :=
  ⟨r.pipelineId, r.order, withoutNul r.cmd, withoutNul r.output, r.exitCode⟩

inductive Report where
  | started (r : Started)
  | output (r : CommandOutput)
  | finished (r : Finished)
  deriving DecidableEq

namespace Report

def pipelineId : Report → Int64
  | .started r => r.pipelineId
  | .output r => r.pipelineId
  | .finished r => r.pipelineId

def startedPath : String := "/rpc/pipeline/started"

def finishedPath : String := "/rpc/pipeline/finished"

def outputPath : String := "/rpc/pipeline/output"

/-- The path of the request that carries the report. -/
def path : Report → String
  | .started _ => startedPath
  | .finished _ => finishedPath
  | .output _ => outputPath

end Report

end Pipeworks
