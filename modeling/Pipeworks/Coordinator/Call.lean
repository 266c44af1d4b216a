/-
What the services of the coordinator are made of: calls to the storage, the queue, the providers and
the stored transcripts.
-/
import Pipeworks.Provider.Hosts
import Pipeworks.Queue.Delivery
import Pipeworks.Settings.Coordinator
import Pipeworks.Storage.Call
import Pipeworks.Transcript.Memory

namespace Pipeworks.Coordinator

/-- What does not change while the coordinator runs. -/
structure Setup where
  settings : Settings.Coordinator
  providers : List Provider

inductive Call where
  | storage (c : Storage.Call)
  /-- Puts work into the queue. -/
  | send (work : Work)
  /-- Shows a status beside a commit. -/
  | post (provider : Provider) (token : Token) (status : CommitStatus)
  | transcript (pipelineId : Int64)

abbrev Answer : Call → Type
  | .storage c => Storage.Answer c
  | .send _ => Except Queue.Fault Unit
  | .post _ _ _ => Except Provider.Fault Unit
  | .transcript _ => Except Transcript.Fault Bytes

/-- A piece of service. -/
abbrev Service (α : Type) : Type := Program Call Answer α

def storage (c : Storage.Call) : Service (Storage.Answer c) := .ask (.storage c) .done

def send (work : Work) : Service (Except Queue.Fault Unit) := .ask (.send work) .done

def post (provider : Provider) (token : Token) (status : CommitStatus) :
    Service (Except Provider.Fault Unit) :=
  .ask (.post provider token status) .done

def transcript (pipelineId : Int64) : Service (Except Transcript.Fault Bytes) :=
  .ask (.transcript pipelineId) .done

end Pipeworks.Coordinator
