/-
What the coordinator keeps: the calls to its storage, and what each one answers. A storage may fail
every call.
-/
import Pipeworks.Program
import Pipeworks.Pipeline.Record
import Pipeworks.Sql.Query

namespace Pipeworks

namespace Storage

inductive Fault where
  | database (f : Sql.Fault)
  /-- What is stored, or should be, is no such thing. -/
  | corrupt (reason : String)
  deriving DecidableEq

def Fault.message : Fault → String
  | .database f => "database error: " ++ f.message
  | .corrupt reason => "corrupt row: " ++ reason

/-- A pipeline before it has an id, which its address ends in. -/
structure NewPipeline where
  repoId : Int64
  commit : String
  cloneUrl : String
  urlBase : String
  deriving DecidableEq

/-- What is needed to create a pipeline for a repository. -/
structure CreationInfo where
  repoId : Int64
  owner : String
  repoName : String
  archived : Bool
  token : Token
  deriving DecidableEq

/-- What is needed to show a new status of a pipeline. -/
structure StateChangeInfo where
  commit : String
  url : String
  provider : String
  owner : String
  repoName : String
  token : Token
  deriving DecidableEq

inductive Call where
  /-- Keeps a new pending pipeline and gives it an id. -/
  | create (new : NewPipeline)
  /-- Removes a pipeline, if it is there. -/
  | delete (id : Int64)
  | find (id : Int64)
  /-- What is known of the repository to which the provider gave an id. -/
  | creationInfo (provider : String) (providerRepoId : Int64)
  /-- Moves a pipeline to running, if it may. -/
  | start (id : Int64) (time : Time.Instant)
  /-- Moves a pipeline to its last status, if it may. -/
  | finish (id : Int64) (status : Status) (time : Time.Instant)
  | stateChangeInfo (id : Int64)
  /-- Keeps a log entry, unless there is one of the same order. -/
  | addLog (entry : LogEntry)
  /-- The log of a pipeline, by order. -/
  | logs (pipelineId : Int64)

/-- What a call answers if it does not fail. -/
abbrev Value : Call → Type
  | .create _ => Pipeline
  | .delete _ => Bool
  | .find _ => Option Pipeline
  | .creationInfo _ _ => Option CreationInfo
  | .start _ _ => Bool
  | .finish _ _ _ => Bool
  | .stateChangeInfo _ => Option StateChangeInfo
  | .addLog _ => Bool
  | .logs _ => List LogEntry

abbrev Answer (c : Call) : Type := Except Fault (Value c)

end Storage

end Pipeworks
