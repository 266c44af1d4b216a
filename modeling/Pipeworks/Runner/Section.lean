/-
The part of a run that has a time limit, as it would be without one: fetch the commit, read its
definition, provide a container, and run the commands up to the first that fails.
-/
import Pipeworks.Runner.Action

namespace Pipeworks.Runner

/-- A part of a run. -/
abbrev Section (α : Type) : Type := Program Action Action.Answer α

/-- Reports a command that has been run; whether that succeeds does not matter. -/
def reportOutput (r : CommandOutput) : Section Unit :=
  .ask (.report (.output r)) fun _ => .done ()

/-- Runs commands, of which the first has the given order. -/
def runCommands (pipelineId : Int64) (container : String) :
    Nat → List String → Section (Except RunFault Unit)
  | _, [] => .done (.ok ())
  | n, cmd :: cmds =>
    if n < Nat.pow 2 31 then
      let order := Int32.ofNat n
      .ask (.exec container cmd) fun
        | .error message => .done (.error (.exec order message))
        | .ok result =>
          (reportOutput ⟨pipelineId, order, cmd, result.output, result.exitCode⟩).bind fun _ =>
            if result.exitCode = 0 then runCommands pipelineId container (n + 1) cmds
            else .done (.error (.commandFailed order cmd result.exitCode))
    else .done (.error (.internal "too many commands"))

/-- Provides a container for an image, and answers its name. -/
def provide (spec : ContainerSpec) : Section (Except RunFault String) :=
  .ask (.pull spec.image) fun
    | .error message => .done (.error (.provision message))
    | .ok () => .ask (.create spec) fun
      | .error message => .done (.error (.provision message))
      | .ok name => .ask (.start name) fun
        | .error message => .done (.error (.provision message))
        | .ok () => .done (.ok name)

/-- What the container of a run is called; the last part tells runs of one pipeline apart. -/
def containerName (pipelineId : Int64) (unique : String) : String :=
  "kiln-" ++ toString pipelineId.toInt ++ "-" ++ unique

/-- Runs work in a checkout. The credential has to be valid when the run starts. -/
def runSection (work : Work) (directory unique : String) (now : Time.Instant) :
    Section (Except RunFault Unit) :=
  let p := work.pipeline
  if work.token.isExpiredAt now then .done (.error .tokenExpired)
  else .ask (.fetch p.cloneUrl p.commit work.token directory) fun
    | .error message => .done (.error (.fetch message))
    | .ok file =>
      match file.read with
      | .error f => .done (.error f)
      | .ok d => (provide ⟨containerName p.id unique, d.image, directory⟩).bind fun
        | .error f => .done (.error f)
        | .ok container => runCommands p.id container 0 d.commands

end Pipeworks.Runner
