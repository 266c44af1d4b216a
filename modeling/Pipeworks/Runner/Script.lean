/-
Collaborators that act as a script says, and the scene that they leave behind: what a run has asked
for and when, and the checkouts that are still there.
-/
import Pipeworks.Runner.Timeline
import Pipeworks.Transcript.Memory

namespace Pipeworks.Runner

/-- How a call goes: it takes so many milliseconds, and then it never returns, fails or succeeds. -/
structure Cue where
  delay : Nat := 0
  hangs : Bool := false
  fault : Option String := none

/-- What becomes of a call that answers a value if it succeeds. -/
def Cue.play {α : Type} (c : Cue) (value : α) : Lasting (Except String α) :=
  if c.hangs then none
  else
    match c.fault with
    | some message => some (c.delay, .error message)
    | none => some (c.delay, .ok value)

structure Script where
  /-- How a commit is fetched, and the definition file in it. -/
  fetch : (commit : String) → Cue × DefinitionFile
  pull : Cue := {}
  create : Cue := {}
  /-- The name that a new container gets, if it is not the one asked for. -/
  name : Option String := none
  start : Cue := {}
  /-- How the n-th command of a run goes, and how it ends. -/
  exec : (n : Nat) → (cmd : String) → Cue × ExecOutput
  stop : Cue := {}
  remove : Cue := {}
  /-- Which reports get lost. -/
  loses : Report → Bool := fun _ => false
  /-- Whether there is a place for checkouts. -/
  hasWorkspace : Bool := true
  /-- Whether transcripts can be stored. -/
  hasStore : Bool := true
  /-- The time that the clock shows. -/
  time : Time.Instant

/-- Those that reports and transcripts go to. -/
structure Recipient (σ : Type) where
  report : Report → σ → Except String Unit × σ
  upload : Int64 → Bytes → UInt64 → σ → Except Transcript.Fault Unit × σ

/-- A recipient that does nothing but keep transcripts. -/
def Recipient.store : Recipient Transcript.MemoryStore where
  report _ s := (.ok (), s)
  upload id content size s :=
    match s.upload id content size with
    | .ok s => (.ok (), s)
    | .error f => (.error f, s)

/-- The checkouts there are, each with its definition file. -/
abbrev Checkouts : Type := List (String × DefinitionFile)

/-- Whether there is a checkout with a definition file. -/
def Checkouts.holdDefinition (c : Checkouts) (directory : String) : Bool :=
  c.any fun (name, file) => name == directory && file != .missing

/-- Something that a run has asked for, and the checkouts that there were then. -/
structure Entry where
  time : Nat
  action : Action
  checkouts : Checkouts

structure Scene (σ : Type) where
  world : σ
  /-- All that has been asked for, in order. -/
  journal : List Entry := []
  checkouts : Checkouts := []

namespace Scene

variable {σ : Type}

def note (time : Nat) (a : Action) (s : Scene σ) : Scene σ :=
  { s with journal := s.journal ++ [⟨time, a, s.checkouts⟩] }

/-- A checkout with a name of its own. -/
def openCheckout (s : Scene σ) : String × Scene σ :=
  let directory := "checkout-" ++ toString s.journal.length
  (directory, { s with checkouts := (directory, .missing) :: s.checkouts })

/-- Puts a definition file into a checkout. -/
def fill (directory : String) (file : DefinitionFile) (s : Scene σ) : Scene σ :=
  { s with checkouts := s.checkouts.map fun (name, old) =>
      (name, if name == directory then file else old) }

def closeCheckout (directory : String) (s : Scene σ) : Scene σ :=
  { s with checkouts := s.checkouts.filter fun (name, _) => name != directory }

end Scene

/-- The collaborators that act as a script says. -/
def Script.collaborators {σ : Type} (script : Script) (recipient : Recipient σ) :
    Collaborators (Scene σ) := fun a commands now scene =>
  let scene := scene.note now a
  match a with
  | .clock => (some (0, script.time), scene)
  | .report r =>
    if script.loses r then (some (0, .error "report refused"), scene)
    else
      let (answer, world) := recipient.report r scene.world
      (some (0, answer), { scene with world })
  | .openCheckout _ =>
    if script.hasWorkspace then
      let (directory, scene) := scene.openCheckout
      (some (0, .ok directory), scene)
    else (some (0, .error "No such file or directory (os error 2)"), scene)
  | .closeCheckout directory => (some (0, .ok ()), scene.closeCheckout directory)
  | .fetch _ commit _ directory =>
    let (cue, file) := script.fetch commit
    (cue.play file, if cue.fault.isNone then scene.fill directory file else scene)
  | .pull _ => (script.pull.play (), scene)
  | .create spec => (script.create.play (script.name.getD spec.name), scene)
  | .start _ => (script.start.play (), scene)
  | .exec _ cmd =>
    let (cue, result) := script.exec commands cmd
    (cue.play result, scene)
  | .stop _ => (script.stop.play (), scene)
  | .remove _ => (script.remove.play (), scene)
  | .upload id content size =>
    if script.hasStore then
      let (answer, world) := recipient.upload id content size scene.world
      (some (0, answer), { scene with world })
    else (some (0, .error .io), scene)

end Pipeworks.Runner
