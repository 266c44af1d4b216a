/-
Storage in a database: every call as the statements that it executes. A status is changed by one
statement, whose condition lets it only move forward.
-/
import Pipeworks.Sql.Query
import Pipeworks.Storage.Call

namespace Pipeworks.Storage

/-- What is done in a database. -/
abbrev Session (α : Type) : Type := Program Sql.Query Sql.Query.Answer α

/-! ## Rows -/

/-- What is said of a pipeline whose status is none. -/
def unknownStatus (id : Int64) (status : String) : String :=
  "pipeline " ++ toString id.toInt ++ ": " ++ Status.unknownMessage status

/-- The pipeline in a row. -/
def readPipeline (c : Sql.PipelineColumns) : Except Fault Pipeline :=
  match c.read with
  | .error f => .error (.database f)
  | .ok r =>
    match Status.ofName? r.status with
    | none => .error (.corrupt (unknownStatus r.id r.status))
    | some status =>
      .ok ⟨r.id, status, r.commit, r.cloneUrl, r.url, r.startedAt, r.finishedAt, r.repoId⟩

def readCreationInfo (c : Sql.RepoColumns) : Except Sql.Fault CreationInfo := do
  let repoId ← Sql.needed "repo_id" c.repoId
  let owner ← Sql.needed "owner" c.owner
  let repoName ← Sql.needed "repo_name" c.repoName
  let archived ← Sql.needed "archived" c.archived
  let token ← c.credential.read
  pure ⟨repoId, owner, repoName, archived, token⟩

def readStateChangeInfo (c : Sql.ContextColumns) : Except Sql.Fault StateChangeInfo := do
  let commit ← Sql.needed "commit_sha" c.commit
  let url ← Sql.needed "target_url" c.url
  let provider ← Sql.needed "provider" c.provider
  let owner ← Sql.needed "owner" c.owner
  let repoName ← Sql.needed "repo_name" c.repoName
  let token ← c.credential.read
  pure ⟨commit, url, provider, owner, repoName, token⟩

/-- The first row, if there is one. -/
def readFirst {α β ε : Type} (read : α → Except ε β) : List α → Except ε (Option β)
  | [] => .ok none
  | row :: _ => (read row).map some

/-! ## Calls -/

/-- Executes one statement and reads what it answers. -/
def query {α : Type} (q : Sql.Query) (read : q.Rows → Except Fault α) :
    Session (Except Fault α) :=
  .ask q fun
    | .error f => .done (.error (.database f))
    | .ok rows => .done (read rows)

/-- The names of the statuses from which a status may be entered. -/
def allowedNames (next : Status) : List String := next.predecessors.map Status.name

/-- Gives up a transaction. -/
def abandon {α : Type} (f : Sql.Fault) : Session (Except Fault α) :=
  .ask .dropTransaction fun _ => .done (.error (.database f))

/-- Creates a pipeline. Its address ends in its id, so it is set by a second statement. -/
def createPipeline (new : NewPipeline) : Session (Except Fault Pipeline) :=
  .ask .startTransaction fun
    | .error f => .done (.error (.database f))
    | .ok () =>
      .ask (.insertPipeline new.repoId Status.pending.name new.commit new.cloneUrl) fun
        | .error f => abandon f
        | .ok [] => abandon .noRow
        | .ok (none :: _) => abandon (.nullColumn "0")
        | .ok (some id :: _) =>
          let url := new.urlBase ++ toString id.toInt
          .ask (.setUrl url id) fun
            | .error f => abandon f
            | .ok _ => .ask .finishTransaction fun
              | .error f => .done (.error (.database f))
              | .ok () => .done (.ok
                  ⟨id, .pending, new.commit, new.cloneUrl, url, none, none, new.repoId⟩)

/-- What a call does in a database. -/
def inDatabase : (c : Call) → Session (Answer c)
  | .create new => createPipeline new
  | .delete id => query (.deletePipeline id) fun n => .ok (decide (0 < n))
  | .find id => query (.selectPipeline id) (readFirst readPipeline)
  | .creationInfo provider providerRepoId =>
    query (.selectRepo provider providerRepoId) fun rows =>
      (readFirst readCreationInfo rows).mapError .database
  | .start id time =>
    query (.markStarted Status.running.name time id (allowedNames .running)) fun n =>
      .ok (decide (0 < n))
  | .finish id status time =>
    query (.markFinished status.name time id (allowedNames status)) fun n => .ok (decide (0 < n))
  | .stateChangeInfo id =>
    query (.selectContext id) fun rows => (readFirst readStateChangeInfo rows).mapError .database
  | .addLog e => query (.insertLog e) fun n => .ok (decide (0 < n))
  | .logs id => query (.selectLogs id) fun rows => (Sql.readLogs rows).mapError .database

end Pipeworks.Storage
