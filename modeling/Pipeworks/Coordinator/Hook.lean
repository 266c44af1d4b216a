/-
What becomes of a delivery by a provider: a genuine push to a known repository makes a pending
pipeline and puts its work into the queue. All is looked up before anything is kept, and a pipeline
whose work cannot be queued is removed again.
-/
import Pipeworks.Coordinator.Call

namespace Pipeworks.Coordinator

open Http (Headers)

inductive HookOutcome where
  | ping
  /-- There is nothing to build. -/
  | ignored (reason : String)
  | created (p : Pipeline)
  deriving DecidableEq

inductive HookFault where
  | unknownProvider (name : String)
  | invalidSignature
  | invalidPayload (f : PayloadFault)
  | unsupported (event : String)
  | unknownRepo (providerRepoId : Int64)
  | archivedRepo (providerRepoId : Int64)
  /-- The work could not be queued. -/
  | dispatch (f : Queue.Fault)
  | storage (f : Storage.Fault)
  deriving DecidableEq

def HookFault.message : HookFault → String
  | .unknownProvider name => "unknown provider: " ++ name
  | .invalidSignature => "invalid webhook signature"
  | .invalidPayload f => "invalid payload: " ++ f.message
  | .unsupported event => "event not implemented: " ++ event
  | .unknownRepo id => "repo " ++ toString id.toInt ++ " is not registered"
  | .archivedRepo id => "repo " ++ toString id.toInt ++ " is archived"
  | .dispatch f => "failed to dispatch pipeline: " ++ f.message
  | .storage f => f.message

/-- Queues the work of a new pipeline and shows that it is pending, which may fail. -/
def dispatch (setup : Setup) (provider : Provider) (info : Storage.CreationInfo) (p : Pipeline) :
    Service (Except HookFault HookOutcome) := do
  match ← send ⟨p, info.token⟩ with
  | .error f =>
    let _ ← storage (.delete p.id)
    pure (.error (.dispatch f))
  | .ok () =>
    let _ ← post provider info.token ⟨info.owner, info.repoName, p.commit, .pending, p.url,
      setup.settings.statusContext, "Pipeline is queued"⟩
    pure (.ok (.created p))

/-- Makes a pipeline of a push. -/
def build (setup : Setup) (provider : Provider) (push : Push) :
    Service (Except HookFault HookOutcome) := do
  match ← storage (.creationInfo provider.name push.providerRepoId) with
  | .error f => pure (.error (.storage f))
  | .ok none => pure (.error (.unknownRepo push.providerRepoId))
  | .ok (some info) =>
    if info.archived then pure (.error (.archivedRepo push.providerRepoId))
    else
      match ← storage (.create ⟨info.repoId, push.commit, push.cloneUrl,
          setup.settings.pipelineUrlBase⟩) with
      | .error f => pure (.error (.storage f))
      | .ok p => dispatch setup provider info p

/-- Takes in a delivery that is addressed to a provider. -/
def accept (setup : Setup) (providerName : String) (headers : Headers) (body : Bytes) :
    Service (Except HookFault HookOutcome) :=
  match Provider.ofName? setup.providers providerName with
  | none => pure (.error (.unknownProvider providerName))
  | some provider =>
    if provider.verify headers body setup.settings.webhookSecret then
      match provider.event headers body with
      | .error f => pure (.error (.invalidPayload f))
      | .ok .ping => pure (.ok .ping)
      | .ok (.ignored reason) => pure (.ok (.ignored reason))
      | .ok (.unsupported event) => pure (.error (.unsupported event))
      | .ok (.push push) => build setup provider push
    else pure (.error .invalidSignature)

end Pipeworks.Coordinator
