/-
Runs in time. Every action takes so many milliseconds, or never returns; between actions no time
passes. An action that ends when the limit strikes has ended, but what was fetched is read after the
fetch, and that the limit does not wait for.
-/
import Pipeworks.Runner.Execution

namespace Pipeworks.Runner

/-- After how long a call returns, and with what; none if it never does. -/
abbrev Lasting (α : Type) : Type := Option (Nat × α)

/-- Those that a run deals with: what becomes of an action that is begun at a time, after so many
commands of the run. -/
abbrev Collaborators (σ : Type) : Type :=
  (a : Action) → (commands now : Nat) → σ → Lasting a.Answer × σ

/-- How many commands an action is. -/
def Action.commands : Action → Nat
  | .exec _ _ => 1
  | _ => 0

def millis (s : Time.Span) : Nat := (s.nanos + 999999) / 1000000

/-- Whether an action whose answer comes at a time is cut off by the limit. -/
def isCut (deadline time : Nat) : (a : Action) → a.Answer → Bool
  | .fetch _ _ _ _, .ok _ => deadline ≤ time
  | _, _ => deadline < time

/-- When a limited action returns, and with what. -/
def limitedAnswer (deadline now : Nat) (a : Action) :
    Lasting a.Answer → Nat × Option a.Answer
  | none => (max now deadline, none)
  | some (delay, answer) =>
    if isCut deadline (now + delay) a answer then (max now deadline, none)
    else (now + delay, some answer)

variable {σ α : Type}

/-! ## Runs by themselves -/

/-- Runs to the end; answers the result and the time, unless some action never returns. -/
def elapse (collaborators : Collaborators σ) (now deadline commands : Nat) :
    Run α → σ → Option (α × Nat) × σ
  | .done a, s => (some (a, now), s)
  | .ask (.setLimit limit) next, s =>
    elapse collaborators now (now + millis limit) commands (next ()) s
  | .ask (.plain a) next, s =>
    match collaborators a commands now s with
    | (none, s) => (none, s)
    | (some (delay, answer), s) =>
      elapse collaborators (now + delay) deadline (commands + a.commands) (next answer) s
  | .ask (.limited a) next, s =>
    let (lasting, s) := collaborators a commands now s
    let (time, answer) := limitedAnswer deadline now a lasting
    elapse collaborators time deadline (commands + a.commands) (next answer) s

/-! ## Runs among others -/

/-- What is left of a job: nothing, or to go on later. -/
inductive Progress (τ : Type) where
  | ended
  | waits (time : Nat) (rest : τ)
  /-- It waits for ever. -/
  | stuck (rest : τ)

/-- A run that has been begun: what it does next, when the limit strikes, and how many commands it
has run. -/
structure Begun where
  program : Run RunSummary
  deadline : Nat := 0
  commands : Nat := 0

/-- Goes on until the first action that takes time. -/
def proceed (collaborators : Collaborators σ) (now deadline commands : Nat) :
    Run RunSummary → σ → Progress Begun × σ
  | .done _, s => (.ended, s)
  | .ask (.setLimit limit) next, s =>
    proceed collaborators now (now + millis limit) commands (next ()) s
  | .ask (.plain a) next, s =>
    match collaborators a commands now s with
    | (none, s) => (.stuck ⟨.ask (.plain a) next, deadline, commands⟩, s)
    | (some (delay, answer), s) =>
      if delay = 0 then proceed collaborators now deadline (commands + a.commands) (next answer) s
      else (.waits (now + delay) ⟨next answer, deadline, commands + a.commands⟩, s)
  | .ask (.limited a) next, s =>
    let (lasting, s) := collaborators a commands now s
    let (time, answer) := limitedAnswer deadline now a lasting
    if time ≤ now then proceed collaborators now deadline (commands + a.commands) (next answer) s
    else (.waits time ⟨next answer, deadline, commands + a.commands⟩, s)

end Pipeworks.Runner
