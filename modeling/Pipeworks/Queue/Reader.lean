/-
A queue read as an endless stream: an empty queue is looked at again after a while, and a failed
receive is an item like a delivery. Time is counted in milliseconds.
-/
import Pipeworks.Queue.Memory

namespace Pipeworks.Queue

/-- Something that happens to a queue at a time. -/
structure Event where
  time : Nat
  operation : Operation

/-- The queue once all events up to a time have happened, and the events after it. -/
def happen (now : Nat) (q : MemoryQueue) : List Event → MemoryQueue × List Event
  | [] => (q, [])
  | e :: es =>
    if e.time ≤ now then happen now (e.operation.attempt q) es else (q, e :: es)

/-- An item of the stream and when it was read. -/
structure Item where
  time : Nat
  content : Except Fault Delivery

/-- One look at the queue: the item, if there is one. -/
def look (q : MemoryQueue) : Option (Except Fault Delivery) × MemoryQueue :=
  match q.receive with
  | (.ok none, q) => (none, q)
  | (.ok (some d), q) => (some (.ok d), q)
  | (.error f, q) => (some (.error f), q)

/-- When an empty queue is looked at again. Every wait takes a millisecond at least. -/
def nextLook (poll now : Nat) : Nat := now + max 1 poll

/-- How a reader waits: between two looks at an empty queue, and after an item. -/
structure Reader where
  poll : Nat
  pause : Nat

/-- Reads from a time to another. A wait at an empty queue ends when the time is over; the one after an
item does not, and one more look follows it. -/
def Reader.read (r : Reader) (stop now : Nat) (q : MemoryQueue) (events : List Event) :
    List Item × MemoryQueue :=
  let (q, events) := happen now q events
  match look q with
  | (none, q) =>
    let next := nextLook r.poll now
    if stop < next then ([], (happen stop q events).1) else r.read stop next q events
  | (some content, q) =>
    let next := nextLook r.pause now
    if stop < now then ([], q)
    else
      let (items, q) := r.read stop next q events
      (⟨now, content⟩ :: items, q)
termination_by stop + 1 - now
decreasing_by all_goals (dsimp only [next, nextLook] at *; omega)

/-- Reads a new queue up to a time, while the events happen in the order of their times. -/
def Reader.run (r : Reader) (stop : Nat) (events : List Event) : List Item × MemoryQueue :=
  r.read stop 0 {} (events.mergeSort fun a b => a.time ≤ b.time)

end Pipeworks.Queue
