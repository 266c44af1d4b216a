/-
An execution is not done before it has reported the end of its pipeline, whatever its actions answer.
-/
import Pipeworks.Runner.Execution

namespace Pipeworks.Runner

variable {α β : Type} {id : Int64}

/-- Whether a call reports the end of a pipeline. -/
def Call.IsEnd (id : Int64) (c : Call) : Prop :=
  ∃ r : Finished, c = .plain (.report (.finished r)) ∧ r.pipelineId = id

/-- A run that cannot be done before it has reported the end of a pipeline. -/
def MustEnd (id : Int64) : Run α → Prop
  | .done _ => False
  | .ask c next => c.IsEnd id ∨ ∀ answer, MustEnd id (next answer)

theorem MustEnd.bind {f : α → Run β} (h : ∀ a, MustEnd id (f a)) (p : Run α) : MustEnd id (p.bind f) := by
  induction p with
  | done a => exact h a
  | ask c next ih => exact .inr ih

theorem execute_mustEnd (limit : Time.Span) (work : Work) (unique : String) :
    MustEnd work.pipeline.id (execute limit work unique) := by
  -- what comes before the last report is over after finitely many calls, whatever they answer
  unfold execute
  refine MustEnd.bind (fun startedAt => ?_) _
  refine MustEnd.bind (fun _ => ?_) _
  refine MustEnd.bind (fun ⟨result, transcript⟩ => ?_) _
  refine MustEnd.bind (fun _ => ?_) _
  refine MustEnd.bind (fun finishedAt => ?_) _
  exact .inl ⟨_, rfl, rfl⟩

end Pipeworks.Runner
