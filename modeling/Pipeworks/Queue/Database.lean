/-
A queue in a database. A message is leased by one statement; one whose lease has run out can be
leased again.
-/
import Pipeworks.Program
import Pipeworks.Queue.Delivery
import Pipeworks.Sql.Query

namespace Pipeworks

open Queue

/-- A queue by its name, and how long its messages are leased. -/
structure DatabaseQueue where
  name : String := "work"
  lease : Time.Span

namespace DatabaseQueue

/-- What is done in a database. -/
abbrev Session (α : Type) : Type := Program Sql.Query Sql.Query.Answer α

/-- Appends a message. -/
def send (q : DatabaseQueue) (work : Work) : Session (Except Fault Unit) :=
  .ask (.insertMessage q.name (Text.bytes work.payload)) fun
    | .error f => .done (.error (.database f))
    | .ok _ => .done (.ok ())

/-- What a settlement answers that has changed so many rows. -/
def settled (tag : Int64) : Except Sql.Fault Nat → Except Fault Unit
  | .error f => .error (.database f)
  | .ok 0 => .error (.unknownDelivery tag.toInt)
  | .ok _ => .ok ()

/-- Removes a message for good. -/
def ack (tag : Int64) : Session (Except Fault Unit) :=
  .ask (.deleteMessage tag) fun answer => .done (settled tag answer)

/-- Ends the lease of a message. -/
def nack (tag : Int64) : Session (Except Fault Unit) :=
  .ask (.releaseMessage tag) fun answer => .done (settled tag answer)

def readPayload (payload : Bytes) : Except Json.Fault Work :=
  (Json.Document.ofBytes payload).read Work.read

/-- The id, the payload and the count of deliveries of a message. -/
def readMessage (c : Sql.MessageColumns) : Except Sql.Fault (Int64 × Bytes × Nat) := do
  let id ← Sql.needed "id" c.id
  let payload ← Sql.needed "payload" c.payload
  let deliveries ← Sql.needed "delivery_count" c.deliveries
  pure (id, payload, deliveries)

/-- Leases the oldest message that is free. One that cannot be read is removed. -/
def receive (q : DatabaseQueue) : Session (Except Fault (Option Delivery)) :=
  .ask (.leaseMessage q.name q.lease) fun
    | .error f => .done (.error (.database f))
    | .ok [] => .done (.ok none)
    | .ok (row :: _) =>
      match readMessage row with
      | .error f => .done (.error (.database f))
      | .ok (id, payload, deliveries) =>
        match readPayload payload with
        | .ok work => .done (.ok (some ⟨id.toInt, work, decide (1 < deliveries)⟩))
        | .error f => (ack id).bind fun
          | .error g => .done (.error g)
          | .ok () => .done (.error (.undecodable id.toInt f))

end DatabaseQueue

end Pipeworks
