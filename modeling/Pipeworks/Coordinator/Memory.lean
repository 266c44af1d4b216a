/-
A coordinator that keeps everything in memory. The plain provider keeps the statuses it is given or
refuses them; the other providers are out on the network.
-/
import Pipeworks.Coordinator.Call
import Pipeworks.Queue.Memory
import Pipeworks.Storage.Memory
import Pipeworks.Transcript.Memory

namespace Pipeworks.Coordinator

structure Memory where
  storage : MemoryStorage := {}
  queue : MemoryQueue := {}
  transcripts : Transcript.MemoryStore := {}
  /-- The statuses that the plain provider took, in order. -/
  posted : List CommitStatus := []
  /-- Whether the plain provider refuses statuses. -/
  refusing : Bool := false

/-- The world outside: where the providers are, and what the network answers. -/
structure Outside where
  hosts : Provider.Hosts
  network : Http.Network

namespace Memory

/-- Gives a status to a provider. -/
def post (outside : Outside) (provider : Provider) (token : Token) (status : CommitStatus)
    (m : Memory) : Except Provider.Fault Unit × Memory :=
  match provider with
  | .plain =>
    if m.refusing then (.error (.refused 502 "bad gateway"), m)
    else (.ok (), { m with posted := m.posted ++ [status] })
  | hosted => (hosted.createStatus outside.network outside.hosts token status, m)

/-- The answers of a coordinator in memory. -/
def handle (outside : Outside) : Program.Handler Call Answer Memory
  | .storage c, m => let (answer, storage) := m.storage.handle c; (answer, { m with storage })
  | .send work, m =>
    match m.queue.send work with
    | .ok queue => (.ok (), { m with queue })
    | .error f => (.error f, m)
  | .post provider token status, m => m.post outside provider token status
  | .transcript id, m => (m.transcripts.download id, m)

end Memory

end Pipeworks.Coordinator
