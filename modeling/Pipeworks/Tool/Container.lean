/-
Containers, by way of a command-line runtime: the checkout is mounted as the workspace, a shell keeps
the container alive, and commands are run in it with all their output in one stream.
-/
import Pipeworks.Tool.Invocation

namespace Pipeworks

/-- The container of a run. -/
structure ContainerSpec where
  name : String
  image : String
  /-- The directory of the host that becomes the workspace. -/
  workspace : String
  deriving DecidableEq

/-- What a command wrote, in the order in which it wrote it, and its exit code. -/
structure ExecOutput where
  output : String
  exitCode : Int32
  deriving DecidableEq

namespace Tool

/-- A runtime, by the name of its program. -/
structure Runtime where
  program : String

namespace Runtime

inductive Fault where
  | noVersion (program : String) (f : LaunchFault)
  | notWorking (program : String)
  | launch (program action : String) (f : LaunchFault)
  | execLaunch (f : LaunchFault)
  | failed (action : String) (code : Int32) (complaint : String)
  deriving DecidableEq

def Fault.message : Fault → String
  | .noVersion program f =>
    "Failed to execute '" ++ program ++ " --version'. Is it installed?: " ++ f.message
  | .notWorking program => program ++ " is not working correctly"
  | .launch program action f =>
    "Failed to execute " ++ program ++ " " ++ action ++ ": " ++ f.message
  | .execLaunch f => "Failed to execute podman exec command: " ++ f.message
  | .failed action code complaint =>
    action ++ " failed: exit_code=" ++ toString code.toInt ++ ", stderr='" ++ complaint ++ "'"

/-- Where the checkout is found in a container. -/
def workspaceMount : String := "/workspace"

/-- Seconds that a container is given to stop by itself. -/
def stopSeconds : String := "5"

/-- A command line whose complaints go where its output goes. -/
def mergedScript (cmd : String) : String := "exec 2>&1\n" ++ cmd

def createArguments (spec : ContainerSpec) : List String := [
  "create", "--name", spec.name, "--entrypoint", "/bin/sh",
  "-v", spec.workspace ++ ":" ++ workspaceMount, "-w", workspaceMount,
  "--", spec.image, "-c", "sleep infinity"]

/-- Starts the runtime, which has to succeed. -/
def perform (r : Runtime) (action : String) (arguments : List String) :
    Session (Except Fault Unit) := do
  match ← Program.call (⟨arguments, []⟩ : Invocation) with
  | .error f => pure (.error (.launch r.program action f))
  | .ok ending =>
    if ending.succeeded then pure (.ok ())
    else pure (.error (.failed action ending.exitCode ending.complaintText))

/-- Finds out whether the runtime is there and answers. -/
def checkAvailable (r : Runtime) : Session (Except Fault Unit) := do
  match ← Program.call (⟨["--version"], []⟩ : Invocation) with
  | .error f => pure (.error (.noVersion r.program f))
  | .ok ending =>
    pure (if ending.succeeded then .ok () else .error (.notWorking r.program))

def pull (r : Runtime) (image : String) : Session (Except Fault Unit) :=
  r.perform "pull" ["pull", "--quiet", "--", image]

/-- Creates a container that is not running yet, and answers its name. -/
def create (r : Runtime) (spec : ContainerSpec) : Session (Except Fault String) := do
  match ← r.perform "create" (createArguments spec) with
  | .error f => pure (.error f)
  | .ok () => pure (.ok spec.name)

def start (r : Runtime) (container : String) : Session (Except Fault Unit) :=
  r.perform "start" ["start", container]

/-- Runs a command line in a running container. An exit code of its own is no fault. -/
def exec (container cmd : String) : Session (Except Fault ExecOutput) := do
  match ← Program.call (⟨["exec", "-w", workspaceMount, container, "/bin/sh", "-c",
      mergedScript cmd], []⟩ : Invocation) with
  | .error f => pure (.error (.execLaunch f))
  | .ok ending => pure (.ok ⟨ending.outputText, ending.exitCode⟩)

def stop (r : Runtime) (container : String) : Session (Except Fault Unit) :=
  r.perform "stop" ["stop", "--time", stopSeconds, container]

def remove (r : Runtime) (container : String) : Session (Except Fault Unit) :=
  r.perform "rm" ["rm", "--force", container]

end Runtime

end Tool

end Pipeworks
