/-
What the calls of an execution show: the reports that were made, the commands that were run and what
became of each, whether the limit struck, which definition was fetched, and which checkouts are still
there.
-/
import Pipeworks.Proofs.Program.Path
import Pipeworks.Runner.Execution

namespace Pipeworks.Runner

/-- The calls of an execution, in order, with their answers. -/
abbrev Journal : Type := List (Program.Event Call Call.Answer)

def Call.action? : Call → Option Action
  | .plain a => some a
  | .limited a => some a
  | .setLimit _ => none

/-! ## Reports -/

def Action.report? : Action → Option Report
  | .report r => some r
  | _ => none

def Call.report? (c : Call) : Option Report := c.action?.bind Action.report?

/-- The reports that were made, whether they arrived or not. -/
def Journal.reports (es : Journal) : List Report := es.filterMap fun e => e.call.report?

@[simp] theorem Journal.reports_append (es fs : Journal) :
    Journal.reports (es ++ fs) = Journal.reports es ++ Journal.reports fs :=
  List.filterMap_append

def output? : Report → Option CommandOutput
  | .output r => some r
  | _ => none

/-- The reports about commands. -/
def Journal.outputs (es : Journal) : List CommandOutput := (Journal.reports es).filterMap output?

@[simp] theorem Journal.outputs_append (es fs : Journal) :
    Journal.outputs (es ++ fs) = Journal.outputs es ++ Journal.outputs fs := by
  rw [outputs, reports_append, List.filterMap_append]; rfl

/-! ## Commands -/

/-- A command that was run, and what became of it: nothing, if the limit struck before it ended. -/
structure CommandRun where
  cmd : String
  result : Option (Except String ExecOutput)

/-- It ended, with exit code 0. -/
def CommandRun.succeeded (c : CommandRun) : Bool :=
  match c.result with
  | some (.ok result) => result.exitCode == 0
  | _ => false

def commandRun? : Program.Event Call Call.Answer → Option CommandRun
  | ⟨.limited (.exec _ cmd), result⟩ => some ⟨cmd, result⟩
  | ⟨.plain (.exec _ cmd), result⟩ => some ⟨cmd, some result⟩
  | _ => none

def Journal.commandRuns (es : Journal) : List CommandRun := es.filterMap commandRun?

@[simp] theorem Journal.commandRuns_append (es fs : Journal) :
    Journal.commandRuns (es ++ fs) = Journal.commandRuns es ++ Journal.commandRuns fs :=
  List.filterMap_append

/-! ## The limit -/

/-- The limit struck during the call. -/
def isCutOff : Program.Event Call Call.Answer → Bool
  | ⟨.limited _, none⟩ => true
  | _ => false

/-- The limit struck. -/
def Journal.isCutOff (es : Journal) : Bool := es.any Runner.isCutOff

/-- After such an event no further command may be run. -/
def endsCommands (e : Program.Event Call Call.Answer) : Bool :=
  Runner.isCutOff e || (commandRun? e).any fun c => !c.succeeded

/-! ## Definitions and checkouts -/

/-- The definition in a file that was fetched. -/
def definition? : Program.Event Call Call.Answer → Option Definition
  | ⟨.limited (.fetch _ _ _ _), some (.ok file)⟩ => file.read.toOption
  | _ => none

/-- The definition that was fetched first. -/
def Journal.definition? (es : Journal) : Option Definition := es.findSome? Runner.definition?

/-- The checkouts that are there after the calls, if these were there before. -/
def Journal.checkouts : List String → Journal → List String
  | ds, [] => ds
  | ds, ⟨.plain (.openCheckout _), .ok d⟩ :: es => Journal.checkouts (d :: ds) es
  | ds, ⟨.plain (.closeCheckout d), .ok ()⟩ :: es => Journal.checkouts (ds.filter (· != d)) es
  | ds, _ :: es => Journal.checkouts ds es

end Pipeworks.Runner
