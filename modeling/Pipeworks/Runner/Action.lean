/-
What a run does to the world around it, and what each action answers.
-/
import Pipeworks.Program
import Pipeworks.Runner.Fault
import Pipeworks.Tool.Container
import Pipeworks.Transcript.Memory

namespace Pipeworks.Runner

/-- What a checkout has in the place of the definition file. -/
inductive DefinitionFile where
  | missing
  | directory
  /-- The file system does not give it. -/
  | unreadable (reason : String)
  | content (b : Bytes)
  deriving DecidableEq

/-- The definition in a checkout. -/
def DefinitionFile.read : DefinitionFile → Except RunFault Definition
  | .missing => .error .definitionMissing
  | .directory => .error (.definition .directory)
  | .unreadable reason => .error (.definition (.unreadable reason))
  | .content b =>
    if Definition.maxBytes < b.length then .error (.definition .tooLong)
    else
      match Text.ofBytes? b with
      | none => .error (.definition .notUtf8)
      | some source =>
        match Definition.ofText source with
        | .error f => .error (.definition (.invalid f))
        | .ok d => .ok d

inductive Action where
  /-- Looks at the clock. -/
  | clock
  | report (r : Report)
  /-- Makes an empty directory for the checkout of a pipeline. -/
  | openCheckout (pipelineId : Int64)
  /-- Removes the directory with all that is in it. -/
  | closeCheckout (directory : String)
  | fetch (cloneUrl commit : String) (token : Token) (directory : String)
  | pull (image : String)
  | create (spec : ContainerSpec)
  | start (container : String)
  | exec (container cmd : String)
  | stop (container : String)
  | remove (container : String)
  /-- Stores a transcript, which is announced to have so many bytes. -/
  | upload (pipelineId : Int64) (transcript : Bytes) (size : UInt64)

/-- What an action answers; faults are told in words, the checkout by its directory. -/
abbrev Action.Answer : Action → Type
  | .clock => Time.Instant
  | .report _ => Except String Unit
  | .openCheckout _ => Except String String
  | .closeCheckout _ => Except String Unit
  | .fetch _ _ _ _ => Except String DefinitionFile
  | .pull _ => Except String Unit
  | .create _ => Except String String
  | .start _ => Except String Unit
  | .exec _ _ => Except String ExecOutput
  | .stop _ => Except String Unit
  | .remove _ => Except String Unit
  | .upload _ _ _ => Except Transcript.Fault Unit

end Pipeworks.Runner
