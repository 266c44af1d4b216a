/-
Runs in time, step by step (`Elapses`): the calls with their answers, and the clock before and after. Such a run
takes a path of its program, ends when `elapse` says so, and comes to its end as the job of a consumer.
-/
import Pipeworks.Proofs.Runner.Journal
import Pipeworks.Proofs.Runner.Single
import Pipeworks.Runner.Worker

namespace Pipeworks.Runner

open Program (Path path_ask_iff)

/-- The time, the time at which the limit strikes, and how many commands have been run. -/
structure Clock where
  now : Nat
  deadline : Nat := 0
  commands : Nat := 0

/-- The clock when an action has ended. -/
def Clock.after (k : Clock) (a : Action) (time : Nat) : Clock := ⟨time, k.deadline, k.commands + a.commands⟩

variable {σ α β : Type} {collaborators : Collaborators σ} {k k₁ k' : Clock} {s s₁ s' : σ} {es fs : Journal}

/-- A run from one clock to another, with all that it asks for. -/
inductive Elapses (collaborators : Collaborators σ) :
    Clock → σ → Run α → Journal → α → Clock → σ → Prop
  | done (k : Clock) (s : σ) (a : α) : Elapses collaborators k s (.done a) [] a k s
  | setLimit {k k' : Clock} {s s' : σ} {limit : Time.Span} {next : Unit → Run α} {es : Journal} {b : α} :
      Elapses collaborators { k with deadline := k.now + millis limit } s (next ()) es b k' s' →
      Elapses collaborators k s (.ask (.setLimit limit) next) (⟨.setLimit limit, ()⟩ :: es) b k' s'
  | plain {k k' : Clock} {s s₁ s' : σ} {a : Action} {next : a.Answer → Run α} {delay : Nat} {answer : a.Answer}
      {es : Journal} {b : α} :
      collaborators a k.commands k.now s = (some (delay, answer), s₁) →
      Elapses collaborators (k.after a (k.now + delay)) s₁ (next answer) es b k' s' →
      Elapses collaborators k s (.ask (.plain a) next) (⟨.plain a, answer⟩ :: es) b k' s'
  | limited {k k' : Clock} {s s₁ s' : σ} {a : Action} {next : Option a.Answer → Run α} {lasting : Lasting a.Answer}
      {time : Nat} {answer : Option a.Answer} {es : Journal} {b : α} :
      collaborators a k.commands k.now s = (lasting, s₁) →
      limitedAnswer k.deadline k.now a lasting = (time, answer) →
      Elapses collaborators (k.after a time) s₁ (next answer) es b k' s' →
      Elapses collaborators k s (.ask (.limited a) next) (⟨.limited a, answer⟩ :: es) b k' s'

namespace Elapses

theorem path {p : Run α} {a : α} (h : Elapses collaborators k s p es a k' s') : Path p es a := by
  induction h with
  | done k s a => exact .done a
  | setLimit _ ih => exact path_ask_iff.2 ⟨(), _, rfl, ih⟩
  | plain _ _ ih => exact .ask _ ih
  | limited _ _ _ ih => exact .ask _ ih

theorem bind {p : Run α} {f : α → Run β} {a : α} {b : β} (h : Elapses collaborators k s p es a k₁ s₁)
    (hf : Elapses collaborators k₁ s₁ (f a) fs b k' s') :
    Elapses collaborators k s (p.bind f) (es ++ fs) b k' s' := by
  induction h with
  | done k s a => exact hf
  | setLimit _ ih => exact .setLimit (ih hf)
  | plain hanswer _ ih => exact .plain hanswer (ih hf)
  | limited hanswer htime _ ih => exact .limited hanswer htime (ih hf)

theorem act {a : Action} {f : a.Answer → Run α} {delay : Nat} {answer : a.Answer} {b : α}
    (hanswer : collaborators a k.commands k.now s = (some (delay, answer), s₁))
    (h : Elapses collaborators (k.after a (k.now + delay)) s₁ (f answer) es b k' s') :
    Elapses collaborators k s (Runner.act a >>= f) (⟨.plain a, answer⟩ :: es) b k' s' :=
  .plain hanswer h

/-- The run ends with its result, at the time that the clock shows then. -/
theorem elapse {p : Run α} {a : α} (h : Elapses collaborators k s p es a k' s') :
    Runner.elapse collaborators k.now k.deadline k.commands p s = (some (a, k'.now), s') := by
  induction h with
  | done k s a => rfl
  | setLimit _ ih => exact ih
  | plain hanswer _ ih =>
    rw [Runner.elapse, hanswer]
    exact ih
  | limited hanswer htime _ ih =>
    rw [Runner.elapse, hanswer]
    dsimp only
    rw [htime]
    exact ih

/-- A limited action does not end before now. -/
theorem le_limitedAnswer (deadline now : Nat) (a : Action) (lasting : Lasting a.Answer) :
    now ≤ (limitedAnswer deadline now a lasting).1 := by
  unfold limitedAnswer
  split
  · exact Nat.le_max_left _ _
  · split
    · exact Nat.le_max_left _ _
    · exact Nat.le_add_right _ _

/-- As the job of a consumer the run comes to its end. -/
theorem finishes {p : Run RunSummary} {summary : RunSummary} (h : Elapses collaborators k s p es summary k' s')
    (limit : Time.Span) (unique : String) :
    (executing collaborators limit unique).Finishes k.now ⟨p, k.deadline, k.commands⟩ s s' := by
  induction h with
  | done k s a => exact .ended rfl
  | setLimit _ ih => exact ih.congr rfl
  | @plain k k' s s₁ s' a next delay answer es b hanswer _ ih =>
    -- an action that takes no time does not let the consumer in between
    by_cases hdelay : delay = 0
    · subst hdelay
      have hrest : (executing collaborators limit unique).Finishes k.now
        ⟨next answer, k.deadline, k.commands + a.commands⟩ s₁ s' := ih
      refine hrest.congr ?_
      simp only [executing, proceed, hanswer, if_true]
    · refine .waits ?_ (Nat.lt_add_of_pos_right (Nat.pos_of_ne_zero hdelay)) ih
      simp only [executing, proceed, hanswer, hdelay, if_false]
      rfl
  | @limited k k' s s₁ s' a next lasting time answer es b hanswer htime _ ih =>
    have hle : k.now ≤ time := by
      have hle := le_limitedAnswer k.deadline k.now a lasting
      rwa [htime] at hle
    by_cases hnow : time ≤ k.now
    · have hsame : time = k.now := Nat.le_antisymm hnow hle
      have hrest : (executing collaborators limit unique).Finishes k.now
        ⟨next answer, k.deadline, k.commands + a.commands⟩ s₁ s' := hsame ▸ ih
      refine hrest.congr ?_
      simp only [executing, proceed, hanswer, htime, hnow, if_true]
    · refine .waits ?_ (Nat.lt_of_not_le hnow) ih
      simp only [executing, proceed, hanswer, htime, hnow, if_false]
      rfl

end Elapses

/-! ## Within the limit -/

theorem limitedAnswer_inTime {deadline now delay : Nat} {a : Action} {answer : a.Answer}
    (h : isCut deadline (now + delay) a answer = false) :
    limitedAnswer deadline now a (some (delay, answer)) = (now + delay, some answer) := by
  simp only [limitedAnswer, h, Bool.false_eq_true, if_false]

/-- An action of a section that ends in time. -/
theorem Elapses.within {t t' : Traces} {a : Action} {next : a.Answer → Section α} {delay : Nat} {answer : a.Answer}
    {r : Option α} (hanswer : collaborators a k.commands k.now s = (some (delay, answer), s₁))
    (hcut : isCut k.deadline (k.now + delay) a answer = false)
    (h : Elapses collaborators (k.after a (k.now + delay)) s₁
      (withinLimit ((t.issued a).answered a answer) (next answer)) es (r, t') k' s') :
    Elapses collaborators k s (withinLimit t (.ask a next)) (⟨.limited a, some answer⟩ :: es) (r, t') k' s' := by
  unfold withinLimit
  exact .limited hanswer (limitedAnswer_inTime hcut) h

end Pipeworks.Runner
