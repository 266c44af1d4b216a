/-
A queue in memory. Messages are numbered as they are sent, wait in the order of their numbers, and
stay leased from their delivery until they are settled. There are fewer than 2 ^ 63 of them, so their
numbers are not bounded here; how often one of them is delivered is counted in thirty-two bits.
-/
import Pipeworks.Queue.Delivery

namespace Pipeworks

namespace Queue

structure Message where
  id : Nat
  payload : String
  /-- How often the message has been delivered, but for multiples of 2 ^ 32. -/
  deliveries : UInt32
  deriving DecidableEq

/-- Puts a message among others in the order of their numbers. -/
def place (m : Message) : List Message → List Message
  | [] => [m]
  | n :: ns => if m.id < n.id then m :: n :: ns else n :: place m ns

end Queue

open Queue

structure MemoryQueue where
  /-- The number of the message sent last. -/
  lastId : Nat := 0
  /-- The messages waiting, oldest first. -/
  ready : List Message := []
  /-- The messages delivered and not yet settled. -/
  inFlight : List Message := []
  /-- Whether nothing can be sent or received. -/
  unavailable : Bool := false

namespace MemoryQueue

/-- Appends a message. -/
def send (work : Work) (q : MemoryQueue) : Except Fault MemoryQueue :=
  if q.unavailable then .error .unavailable
  else
    let id := q.lastId + 1
    .ok { q with lastId := id, ready := place ⟨id, work.payload, 0⟩ q.ready }

/-- Leases the oldest message that is ready. One that cannot be read is dropped. -/
def receive (q : MemoryQueue) : Except Fault (Option Delivery) × MemoryQueue :=
  if q.unavailable then (.error .unavailable, q)
  else match q.ready with
    | [] => (.ok none, q)
    | m :: rest =>
      let m := { m with deliveries := m.deliveries + 1 }
      match Work.ofPayload m.payload with
      | .error f => (.error (.undecodable m.id f), { q with ready := rest })
      | .ok work =>
        (.ok (some ⟨m.id, work, decide (1 < m.deliveries)⟩),
          { q with ready := rest, inFlight := m :: q.inFlight })

/-- The message in flight that a tag stands for. -/
def leased? (q : MemoryQueue) (tag : Int) : Option Message :=
  q.inFlight.find? fun m => (m.id : Int) == tag

/-- The messages in flight but the one that a tag stands for. -/
def release (q : MemoryQueue) (tag : Int) : List Message :=
  q.inFlight.filter fun m => (m.id : Int) != tag

/-- Removes a delivered message for good. -/
def ack (tag : Int) (q : MemoryQueue) : Except Fault MemoryQueue :=
  match q.leased? tag with
  | none => .error (.unknownDelivery tag)
  | some _ => .ok { q with inFlight := q.release tag }

/-- Lets a delivered message be received again, at its old place. -/
def nack (tag : Int) (q : MemoryQueue) : Except Fault MemoryQueue :=
  match q.leased? tag with
  | none => .error (.unknownDelivery tag)
  | some m => .ok { q with inFlight := q.release tag, ready := place m q.ready }

/-- Lets all leases run out. -/
def redeliver (q : MemoryQueue) : MemoryQueue :=
  { q with ready := q.inFlight.foldl (fun ready m => place m ready) q.ready, inFlight := [] }

def setUnavailable (unavailable : Bool) (q : MemoryQueue) : MemoryQueue :=
  { q with unavailable := unavailable }

/-- The work waiting, oldest first. -/
def pendingWork (q : MemoryQueue) : List Work :=
  q.ready.filterMap fun m => (Work.ofPayload m.payload).toOption

/-! ## Operations as values -/

end MemoryQueue

namespace Queue

/-- What may happen to a queue besides a delivery. -/
inductive Operation where
  | send (work : Work)
  | ack (tag : Int)
  | nack (tag : Int)
  | redeliver
  | unavailable (on : Bool)

/-- The queue after an operation. -/
def Operation.apply (op : Operation) (q : MemoryQueue) : Except Fault MemoryQueue :=
  match op with
  | .send work => q.send work
  | .ack tag => q.ack tag
  | .nack tag => q.nack tag
  | .redeliver => .ok q.redeliver
  | .unavailable on => .ok (q.setUnavailable on)

/-- The queue after an operation, which leaves it as it is if it fails. -/
def Operation.attempt (op : Operation) (q : MemoryQueue) : MemoryQueue :=
  match op.apply q with
  | .ok q => q
  | .error _ => q

end Queue

end Pipeworks
