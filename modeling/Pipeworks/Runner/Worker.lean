/-
Runs as the jobs of a consumer, and reports that reach the coordinator at once.
-/
import Pipeworks.Coordinator.Memory
import Pipeworks.Coordinator.Report
import Pipeworks.Runner.Consumer
import Pipeworks.Runner.Script

namespace Pipeworks.Runner

/-- Where a run is as the job of a consumer. -/
def Progress.stage {τ : Type} : Progress τ → Stage τ
  | .ended => .ended
  | .waits time rest => .waits (some time) rest
  | .stuck rest => .waits none rest

/-- The worker that executes work among collaborators. -/
def executing {σ : Type} (collaborators : Collaborators σ) (limit : Time.Span)
    (unique : String) : Worker σ Begun where
  begin work := ⟨execute limit work unique, 0, 0⟩
  proceed now job world :=
    let (progress, world) := proceed collaborators now job.deadline job.commands job.program world
    (progress.stage, world)

/-- A coordinator in memory that reports and transcripts reach at once. -/
def Recipient.coordinator (setup : Coordinator.Setup) (outside : Coordinator.Outside) :
    Recipient Coordinator.Memory where
  report r m :=
    let (answer, m) := (Coordinator.hear setup r).run (Coordinator.Memory.handle outside) m
    (answer.mapError Coordinator.ReportFault.message, m)
  upload id content size m :=
    match m.transcripts.upload id content size with
    | .ok transcripts => (.ok (), { m with transcripts })
    | .error f => (.error f, m)

end Pipeworks.Runner
