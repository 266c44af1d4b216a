/-
Storage in memory. Pipelines are numbered as they are created, and the log is kept by pipeline and
order.
-/
import Pipeworks.Pipeline.Record
import Pipeworks.Storage.Call

namespace Pipeworks

open Storage

structure MemoryStorage where
  /-- How many ids have been given to pipelines. -/
  lastId : Nat := 0
  repos : List Repo := []
  /-- The pipelines, by id. -/
  pipelines : List Pipeline := []
  /-- The entries of all logs, by pipeline and order. -/
  logs : List LogEntry := []
  /-- Whether every call fails. -/
  failing : Bool := false

namespace MemoryStorage

/-! ## Repositories -/

/-- The repository to which the provider gave an id. -/
def repo? (s : MemoryStorage) (provider : String) (providerRepoId : Int64) : Option Repo :=
  s.repos.find? fun r => r.provider == provider && r.providerRepoId == providerRepoId

/-- Registers a repository unless it is known, and answers its id. -/
def addRepo (provider : String) (providerRepoId : Int64) (owner name : String) (archived : Bool)
    (s : MemoryStorage) : Int64 × MemoryStorage :=
  match s.repo? provider providerRepoId with
  | some r => (r.id, s)
  | none =>
    let id := Int64.ofNat (s.repos.length + 1)
    (id, { s with repos := s.repos ++ [⟨id, provider, providerRepoId, owner, name, archived⟩] })

/-- The credential of the owner of a repository. -/
def ownerToken (owner : String) : Token := ⟨"token-" ++ owner, none, "bearer", none⟩

/-! ## Pipelines -/

def pipeline? (s : MemoryStorage) (id : Int64) : Option Pipeline := s.pipelines.find? (·.id == id)

/-- Keeps a new pipeline under the next id; none if all ids have been given. A counter of sixty-four bits overflows
there: checked arithmetic stops, and without the check the id is negative. Neither is followed further. -/
def insert (new : NewPipeline) (s : MemoryStorage) : Option (Pipeline × MemoryStorage) :=
  let n := s.lastId + 1
  if n < Nat.pow 2 63 then
    let p : Pipeline := ⟨Int64.ofNat n, .pending, new.commit, new.cloneUrl,
      new.urlBase ++ toString n, none, none, new.repoId⟩
    some (p, { s with lastId := n, pipelines := s.pipelines ++ [p] })
  else none

/-- Moves a pipeline, if there is one and it may go there. -/
def transition (id : Int64) (next : Status) (time : Time.Instant) (s : MemoryStorage) :
    Bool × MemoryStorage :=
  match (s.pipeline? id).bind (·.advance? next time) with
  | none => (false, s)
  | some p => (true, { s with pipelines := s.pipelines.map fun q => if q.id = id then p else q })

def creationInfo (s : MemoryStorage) (provider : String) (providerRepoId : Int64) :
    Option CreationInfo :=
  (s.repo? provider providerRepoId).map fun r =>
    ⟨r.id, r.owner, r.name, r.archived, ownerToken r.owner⟩

def stateChangeInfo (s : MemoryStorage) (id : Int64) : Option StateChangeInfo :=
  (s.pipeline? id).bind fun p =>
    (s.repos.find? (·.id == p.repoId)).map fun r =>
      ⟨p.commit, p.url, r.provider, r.owner, r.name, ownerToken r.owner⟩

/-! ## Logs -/

/-- Whether an entry has its place before another. -/
def logBefore (a b : LogEntry) : Bool :=
  a.pipelineId < b.pipelineId || (a.pipelineId == b.pipelineId && a.order < b.order)

/-- Puts an entry in its place. -/
def placeLog (e : LogEntry) : List LogEntry → List LogEntry
  | [] => [e]
  | f :: fs => if logBefore e f then e :: f :: fs else f :: placeLog e fs

/-- The entries of one pipeline. -/
def logsOf (s : MemoryStorage) (pipelineId : Int64) : List LogEntry :=
  s.logs.filter (·.pipelineId == pipelineId)

def holdsNul (text : String) : Bool := text.toList.any (· == '\x00')

/-- What is said of an entry that holds a NUL. -/
def nulReason : String := "invalid byte sequence for encoding \"UTF8\": 0x00"

def addLog (e : LogEntry) (s : MemoryStorage) : Except Fault Bool × MemoryStorage :=
  if holdsNul e.cmd || holdsNul e.output then (.error (.corrupt nulReason), s)
  else if s.logs.any fun f => f.pipelineId == e.pipelineId && f.order == e.order then (.ok false, s)
  else (.ok true, { s with logs := placeLog e s.logs })

/-! ## Calls -/

/-- The answer of a storage that does not fail. -/
def perform : Program.Handler Call Answer MemoryStorage
  | .create new, s =>
    match s.insert new with
    | some (p, s) => (.ok p, s)
    | none => (.error (.database .exhausted), s)
  | .delete id, s =>
    (.ok (s.pipeline? id).isSome, { s with pipelines := s.pipelines.filter (·.id != id) })
  | .find id, s => (.ok (s.pipeline? id), s)
  | .creationInfo provider providerRepoId, s => (.ok (s.creationInfo provider providerRepoId), s)
  | .start id time, s => let (moved, s) := s.transition id .running time; (.ok moved, s)
  | .finish id status time, s => let (moved, s) := s.transition id status time; (.ok moved, s)
  | .stateChangeInfo id, s => (.ok (s.stateChangeInfo id), s)
  | .addLog e, s => s.addLog e
  | .logs id, s => (.ok (s.logsOf id), s)

/-- The answer to a call. -/
def handle : Program.Handler Call Answer MemoryStorage := fun c s =>
  if s.failing then (.error (.database .noConnection), s) else perform c s

end MemoryStorage

end Pipeworks
