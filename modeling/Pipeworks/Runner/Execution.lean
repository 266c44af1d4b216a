/-
One execution of work: it reports that it starts, runs the section that has a time limit, clears up
what that has left behind, stores the transcript and reports how the run ended. Where the limit
strikes, what has been done so far tells what there is to clear up.
-/
import Pipeworks.Runner.Section

namespace Pipeworks.Runner

inductive Call where
  /-- An action that is waited for. -/
  | plain (a : Action)
  /-- Starts the clock of the section that has a time limit. -/
  | setLimit (limit : Time.Span)
  /-- An action that is waited for until the limit strikes. -/
  | limited (a : Action)

abbrev Call.Answer : Call → Type
  | .plain a => a.Answer
  | .setLimit _ => Unit
  | .limited a => Option a.Answer

/-- A run as a whole. -/
abbrev Run (α : Type) : Type := Program Call Call.Answer α

def act (a : Action) : Run a.Answer := .ask (.plain a) .done

/-! ## The limit -/

/-- What a section has done that outlives it. -/
structure Traces where
  /-- The container that may exist. -/
  container : Option String := none
  /-- What the commands have written. -/
  transcript : Bytes := []
  deriving DecidableEq

namespace Traces

/-- A container may exist as soon as it is asked for. -/
def issued (t : Traces) : Action → Traces
  | .create spec => { t with container := some spec.name }
  | _ => t

def answered (t : Traces) : (a : Action) → a.Answer → Traces
  | .create _, .ok name => { t with container := some name }
  | .exec _ _, .ok result => { t with transcript := t.transcript ++ Text.bytes result.output }
  | _, _ => t

end Traces

/-- The section until it is done or the limit strikes, and its traces. -/
def withinLimit {α : Type} (t : Traces) : Section α → Run (Option α × Traces)
  | .done a => .done (some a, t)
  | .ask a next => .ask (.limited a) fun
    | none => .done (none, t.issued a)
    | some answer => withinLimit ((t.issued a).answered a answer) (next answer)

/-! ## Executions -/

/-- Removes a container, even where it does not stop. -/
def teardown (container : String) : Run Unit := do
  let _ ← act (.stop container)
  let _ ← act (.remove container)
  pure ()

/-- Runs work in a checkout of its own; answers the transcript as well. -/
def runInCheckout (limit : Time.Span) (work : Work) (unique : String) :
    Run (Except RunFault Unit × Bytes) := do
  match ← act (.openCheckout work.pipeline.id) with
  | .error reason => pure (.error (.noCheckout reason), [])
  | .ok directory =>
    let now ← act .clock
    let _ ← Program.call (Call.setLimit limit)
    let (result, traces) ← withinLimit {} (runSection work directory unique now)
    match traces.container with
    | some container => teardown container
    | none => pure ()
    let _ ← act (.closeCheckout directory)
    pure (result.getD (.error (.timeout limit)), traces.transcript)

/-- Executes work from the first report to the last. -/
def execute (limit : Time.Span) (work : Work) (unique : String) : Run RunSummary := do
  let id := work.pipeline.id
  let startedAt ← act .clock
  let _ ← act (.report (.started ⟨id, startedAt⟩))
  let (result, transcript) ← runInCheckout limit work unique
  let _ ← act (.upload id transcript (Transcript.byteCount transcript))
  let summary := RunSummary.ofResult result
  let finishedAt ← act .clock
  let _ ← act (.report (.finished ⟨id, finishedAt, summary.outcome, summary.error⟩))
  pure summary

end Pipeworks.Runner
