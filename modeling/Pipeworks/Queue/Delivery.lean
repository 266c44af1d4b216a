/-
Work on its way from the coordinator to a runner: the payload that carries it, one delivery of it,
and what can go wrong.
-/
import Pipeworks.Pipeline.Wire
import Pipeworks.Sql.Query

namespace Pipeworks

/-- The payload of a message. -/
def Work.payload (w : Work) : String := w.toJson.text

def Work.ofPayload (payload : String) : Except Json.Fault Work :=
  (Json.Document.ofText payload).read Work.read

namespace Queue

/-- One delivery of a message. Its tag is the number of the message. -/
structure Delivery where
  tag : Int
  work : Work
  /-- Whether the message has been delivered before. -/
  redelivered : Bool

inductive Fault where
  | database (f : Sql.Fault)
  /-- The message could not be read and is gone. -/
  | undecodable (id : Int) (f : Json.Fault)
  | unavailable
  | unknownDelivery (tag : Int)
  deriving DecidableEq

def Fault.message : Fault → String
  | .database f => "queue database error: " ++ f.message
  | .undecodable id f => "dropped undecodable message " ++ toString id ++ ": " ++ f.message
  | .unavailable => "queue is unavailable"
  | .unknownDelivery tag => "unknown delivery tag " ++ toString tag

end Queue

end Pipeworks
