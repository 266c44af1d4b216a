/-
A queue that is read as a stream is received from and nothing more: what a look finds is what a receiver is answered
(`receive_of_look`), and what a reader reads has been delivered, in this order, in a history of the queue
(`read_history`). So what is promised of queues holds of their streams.
-/
import Pipeworks.Proofs.Queue.History
import Pipeworks.Queue.Reader

namespace Pipeworks

namespace Queue

variable {q q' : MemoryQueue} {h : History}

/-! ## Looks -/

/-- What a receiver is answered where a look finds an item, or nothing. -/
def answerOf : Option (Except Fault Delivery) → Except Fault (Option Delivery)
  | none => .ok none
  | some (.ok d) => .ok (some d)
  | some (.error f) => .error f

theorem look_of_receive {item : Option (Except Fault Delivery)} (hreceive : q.receive = (answerOf item, q')) :
    look q = (item, q') := by
  unfold look
  rw [hreceive]
  rcases item with _ | (f | d) <;> rfl

theorem receive_of_look {item : Option (Except Fault Delivery)} (hlook : look q = (item, q')) :
    q.receive = (answerOf item, q') := by
  unfold look at hlook
  split at hlook <;> obtain ⟨rfl, rfl⟩ := Prod.mk.inj hlook <;> assumption

/-! ## Streams -/

theorem after_receive (h : History) {item : Option (Except Fault Delivery)} (hlook : look h.queue = (item, q')) :
    (h.after .receive).queue = q' ∧
      (h.after .receive).delivered = h.delivered ++ (item.bind Except.toOption).toList := by
  have hperform : Action.receive.perform h.queue = (answerOf item, q') := receive_of_look hlook
  unfold History.after
  rw [hperform]
  rcases item with _ | (f | d)
  · exact ⟨rfl, rfl⟩
  · exact ⟨rfl, (List.append_nil _).symm⟩
  · exact ⟨rfl, rfl⟩

theorem after_operation (h : History) (op : Operation) :
    (h.after (.operation op)).queue = op.attempt h.queue ∧ (h.after (.operation op)).delivered = h.delivered := by
  cases hop : op.apply h.queue with
  | error f =>
    have hperform : (Action.operation op).perform h.queue = (.error f, h.queue) := by rw [Action.perform, hop]
    unfold History.after
    rw [hperform, MemoryQueue.attempt_error _ hop]
    exact ⟨rfl, rfl⟩
  | ok q' =>
    have hperform : (Action.operation op).perform h.queue = (.ok none, q') := by rw [Action.perform, hop]
    unfold History.after
    rw [hperform, MemoryQueue.attempt_ok _ hop]
    cases op <;> exact ⟨rfl, rfl⟩

/-- Events are operations. -/
theorem happen_history (now : Nat) (h : History) (events : List Event) :
    ∃ actions : List Action, (actions.foldl History.after h).queue = (happen now h.queue events).1 ∧
      (actions.foldl History.after h).delivered = h.delivered := by
  induction events generalizing h with
  | nil => exact ⟨[], rfl, rfl⟩
  | cons e events ih =>
    unfold happen
    split
    case isFalse => exact ⟨[], rfl, rfl⟩
    case isTrue =>
      obtain ⟨hqueue, hdelivered⟩ := after_operation h e.operation
      obtain ⟨actions, hactions, hsame⟩ := ih (h.after (.operation e.operation))
      exact ⟨.operation e.operation :: actions, hqueue ▸ hactions, hsame.trans hdelivered⟩

/-- The deliveries among items. -/
def deliveries (items : List Item) : List Delivery := items.filterMap (·.content.toOption)

/-- What a look finds once events have happened is delivered after them. -/
theorem look_history (now : Nat) (h : History) (events : List Event) {item : Option (Except Fault Delivery)}
    (hlook : look (happen now h.queue events).1 = (item, q')) :
    ∃ actions : List Action, (actions.foldl History.after h).queue = q' ∧
      (actions.foldl History.after h).delivered = h.delivered ++ (item.bind Except.toOption).toList := by
  obtain ⟨before, hqueue, hdelivered⟩ := happen_history now h events
  obtain ⟨hlast, hlooked⟩ := after_receive (before.foldl History.after h) (hqueue.symm ▸ hlook)
  refine ⟨before ++ [.receive], ?_⟩
  rw [List.foldl_append, ← hdelivered]
  exact ⟨hlast, hlooked⟩

/-- What is read from a queue with a history is delivered next, in the order in which it is read; one more delivery may
be lost to the reader as its time is over. -/
theorem Reader.read_history (r : Reader) (stop now : Nat) (h : History) (events : List Event) :
    ∃ actions : List Action, (actions.foldl History.after h).queue = (r.read stop now h.queue events).2 ∧
      h.delivered ++ deliveries (r.read stop now h.queue events).1 <+:
        (actions.foldl History.after h).delivered := by
  induction hleft : stop + 1 - now using Nat.strong_induction_on generalizing now h events with
  | h left ih =>
    rw [Reader.read]
    cases hhappen : happen now h.queue events with
    | mk q₁ events₁ =>
    cases hlook : look q₁ with
    | mk item q₂ =>
    obtain ⟨actions, rfl, hlooked⟩ := look_history now h events ((congrArg (look ·.1) hhappen).trans hlook)
    have hafter : ∀ later : List Action, (actions ++ later).foldl History.after h =
        later.foldl History.after (actions.foldl History.after h) := fun later => List.foldl_append
    simp only [hlook]
    cases item with
    | none =>
      have hsame : (actions.foldl History.after h).delivered = h.delivered := hlooked.trans (List.append_nil _)
      dsimp only
      split
      case isTrue =>
        obtain ⟨later, hlast, hquiet⟩ := happen_history stop (actions.foldl History.after h) events₁
        refine ⟨actions ++ later, (hafter later).symm ▸ hlast, ?_⟩
        rw [hafter, hquiet, hsame]
        exact (List.append_nil h.delivered).symm ▸ List.prefix_rfl
      case isFalse hopen =>
        obtain ⟨later, hlast, hprefix⟩ := ih _ (by unfold nextLook at *; omega) (nextLook r.poll now) _ events₁ rfl
        refine ⟨actions ++ later, (hafter later).symm ▸ hlast, ?_⟩
        rw [hafter, ← hsame]
        exact hprefix
    | some content =>
      dsimp only
      split
      case isTrue =>
        refine ⟨actions, rfl, ?_⟩
        rw [hlooked]
        exact (List.prefix_append_right_inj h.delivered).2 List.nil_prefix
      case isFalse hopen =>
        obtain ⟨later, hlast, hprefix⟩ := ih _ (by unfold nextLook at *; omega) (nextLook r.pause now) _ events₁ rfl
        refine ⟨actions ++ later, (hafter later).symm ▸ hlast, ?_⟩
        have hitems : ∀ items, deliveries (⟨now, content⟩ :: items) =
            ((some content).bind Except.toOption).toList ++ deliveries items := by
          intro items
          cases content <;> rfl
        rw [hafter, hitems, ← List.append_assoc, ← hlooked]
        exact hprefix

/-- What is read from a new queue. -/
theorem Reader.run_history (r : Reader) (stop : Nat) (events : List Event) :
    ∃ actions, (History.of actions).queue = (r.run stop events).2 ∧
      deliveries (r.run stop events).1 <+: (History.of actions).delivered :=
  r.read_history stop 0 {} _

end Queue

end Pipeworks
