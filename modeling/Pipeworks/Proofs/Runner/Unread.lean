/-
What a run does not read: what becomes of its reports, of stopping and removing the container, of closing the
checkout and of storing the transcript. Had these been answered otherwise, the run would have gone the same way
(`execute_ignores`).
-/
import Pipeworks.Proofs.Runner.Journal

namespace Pipeworks.Runner

open Program (Ignores)

variable {α : Type}

/-- Whether a run goes on in the same way whatever the action answers. -/
def Action.isUnread : Action → Bool
  | .report _ | .stop _ | .remove _ | .closeCheckout _ | .upload _ _ _ => true
  | _ => false

/-- Answers that are the same, or that are not read. -/
def Action.Alike (a : Action) (x y : a.Answer) : Prop := a.isUnread ∨ x = y

/-- Answers that are the same, or that are not read: whether the limit struck before there was one is. -/
def Call.Alike : (c : Call) → c.Answer → c.Answer → Prop
  | .plain a, x, y => a.Alike x y
  | .setLimit _, _, _ => True
  | .limited a, x, y => Option.Rel a.Alike x y

/-! ## Sections -/

/-- An action whose answer is read. -/
theorem ask_ignores {a : Action} {next : a.Answer → Section α} (ha : a.isUnread = false)
    (h : ∀ x, (next x).Ignores Action.Alike) : Program.Ignores Action.Alike (.ask a next) := by
  refine ⟨fun x y hxy => ?_, h⟩
  rcases hxy with hunread | rfl
  · rw [ha] at hunread
    cases hunread
  · rfl

theorem runCommands_ignores (id : Int64) (container : String) (n : Nat) (cmds : List String) :
    (runCommands id container n cmds).Ignores Action.Alike := by
  induction cmds generalizing n with
  | nil => trivial
  | cons cmd cmds ih =>
    unfold runCommands
    split
    · refine ask_ignores rfl fun ran => ?_
      cases ran with
      | error message => trivial
      | ok result =>
        -- whether the report has arrived is not asked
        refine ⟨fun _ _ _ => rfl, fun _ => ?_⟩
        dsimp only [Program.bind_done]
        split
        · exact ih (n + 1)
        · trivial
    · trivial

theorem provide_ignores (spec : ContainerSpec) : (provide spec).Ignores Action.Alike := by
  refine ask_ignores rfl fun pulled => ?_
  cases pulled with
  | error message => trivial
  | ok =>
    refine ask_ignores rfl fun created => ?_
    cases created with
    | error message => trivial
    | ok name =>
      refine ask_ignores rfl fun started => ?_
      cases started <;> trivial

theorem runSection_ignores (work : Work) (directory unique : String) (now : Time.Instant) :
    (runSection work directory unique now).Ignores Action.Alike := by
  unfold runSection
  split
  · trivial
  refine ask_ignores rfl fun fetched => ?_
  cases fetched with
  | error message => trivial
  | ok file =>
    dsimp only
    split
    · trivial
    · refine (provide_ignores _).bind fun provided => ?_
      cases provided with
      | error f => trivial
      | ok container => exact runCommands_ignores _ _ _ _

/-- What is not read leaves no traces. -/
theorem Traces.answered_unread (t : Traces) {a : Action} (ha : a.isUnread) (x : a.Answer) : t.answered a x = t := by
  cases a <;> first | rfl | cases ha

theorem withinLimit_ignores {p : Section α} (h : p.Ignores Action.Alike) (t : Traces) :
    (withinLimit t p).Ignores Call.Alike := by
  induction p generalizing t with
  | done a => trivial
  | ask a next ih =>
    obtain ⟨hfirst, hrest⟩ := h
    unfold withinLimit
    refine ⟨fun x y hxy => ?_, fun x => ?_⟩
    · cases hxy with
      | none => rfl
      | some hxy =>
        rcases hxy with hunread | rfl
        · simp only [Traces.answered_unread _ hunread]
          rw [hfirst _ _ (.inl hunread)]
        · rfl
    · cases x with
      | none => trivial
      | some answer => exact ih answer (hrest answer) _

/-! ## The whole run -/

/-- An action whose answer is read. -/
theorem act_ignores {a : Action} {f : a.Answer → Run α} (ha : a.isUnread = false) (h : ∀ x, (f x).Ignores Call.Alike) :
    (act a >>= f).Ignores Call.Alike := by
  refine ⟨fun x y hxy => ?_, h⟩
  rcases hxy with hunread | rfl
  · rw [ha] at hunread
    cases hunread
  · rfl

/-- An action whose answer is not read. -/
theorem act_ignores_any {a : Action} {p : Run α} (h : p.Ignores Call.Alike) :
    (act a >>= fun _ => p).Ignores Call.Alike :=
  ⟨fun _ _ _ => rfl, fun _ => h⟩

theorem teardown_ignores (container : String) : (teardown container).Ignores Call.Alike :=
  act_ignores_any (act_ignores_any trivial)

theorem runInCheckout_ignores (limit : Time.Span) (work : Work) (unique : String) :
    (runInCheckout limit work unique).Ignores Call.Alike := by
  refine act_ignores rfl fun opened => ?_
  cases opened with
  | error reason => trivial
  | ok directory =>
    refine act_ignores rfl fun now => ⟨fun _ _ _ => rfl, fun _ => ?_⟩
    refine (withinLimit_ignores (runSection_ignores work directory unique now) {}).bind fun ⟨result, traces⟩ => ?_
    dsimp only
    split
    · exact (teardown_ignores _).bind fun _ => act_ignores_any trivial
    · exact act_ignores_any trivial

theorem execute_ignores (limit : Time.Span) (work : Work) (unique : String) :
    (execute limit work unique).Ignores Call.Alike := by
  refine act_ignores rfl fun startedAt => act_ignores_any ?_
  refine (runInCheckout_ignores limit work unique).bind fun ⟨result, transcript⟩ => act_ignores_any ?_
  exact act_ignores rfl fun finishedAt => act_ignores_any trivial

end Pipeworks.Runner
