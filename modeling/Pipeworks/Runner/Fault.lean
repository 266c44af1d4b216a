/-
Why a run failed: the phase that failed it, the message that a runner keeps to itself, and the
category that may be published.
-/
import Pipeworks.Definition.Reader
import Pipeworks.Pipeline.Report
import Pipeworks.Time.Span

namespace Pipeworks.Runner

/-- Why a definition file that is there is no definition. -/
inductive FileFault where
  | directory
  | unreadable (reason : String)
  | tooLong
  | notUtf8
  | invalid (f : DefinitionFault)

def FileFault.message : FileFault → String
  | .directory => "Is a directory (os error 21)"
  | .unreadable reason => reason
  | .tooLong => "file exceeds " ++ toString Definition.maxBytes ++ " bytes"
  | .notUtf8 => "stream did not contain valid UTF-8"
  | .invalid f => f.message

inductive RunFault where
  | tokenExpired
  | fetch (message : String)
  | definitionMissing
  | definition (f : FileFault)
  | provision (message : String)
  | commandFailed (order : Int32) (cmd : String) (exitCode : Int32)
  /-- A command could not be run at all. -/
  | exec (order : Int32) (message : String)
  | timeout (limit : Time.Span)
  | internal (message : String)

namespace RunFault

/-- There is no directory for the checkout. -/
def noCheckout (reason : String) : RunFault := .internal ("failed to create checkout directory: " ++ reason)

def category : RunFault → FailureCategory
  | .tokenExpired => .fetch
  | .fetch _ => .fetch
  | .definitionMissing => .config
  | .definition _ => .config
  | .provision _ => .provision
  | .commandFailed _ _ _ => .execution
  | .exec _ _ => .execution
  | .timeout _ => .timeout
  | .internal _ => .internal

def message : RunFault → String
  | .tokenExpired => "credential expired before the run started"
  | .fetch message => "fetch failed: " ++ message
  | .definitionMissing => Definition.fileName ++ " not found in repository"
  | .definition f => "invalid " ++ Definition.fileName ++ ": " ++ f.message
  | .provision message => "provisioning failed: " ++ message
  | .commandFailed order cmd exitCode =>
    "command " ++ toString order.toInt ++ " \x60" ++ cmd ++ "\x60 exited with code " ++
      toString exitCode.toInt
  | .exec order message => "command " ++ toString order.toInt ++ " could not be run: " ++ message
  | .timeout limit => "pipeline timed out after " ++ limit.text
  | .internal message => "internal error: " ++ message

def summary (f : RunFault) : FailureSummary := ⟨f.category, f.message⟩

end RunFault

/-- How a run ended, as it is reported. -/
structure RunSummary where
  outcome : Outcome
  error : Option FailureSummary
  deriving DecidableEq

def RunSummary.ofResult : Except RunFault Unit → RunSummary
  | .ok () => ⟨.success, none⟩
  | .error f => ⟨.failure, some f.summary⟩

end Pipeworks.Runner
