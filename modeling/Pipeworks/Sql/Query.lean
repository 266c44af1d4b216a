/-
The statements that the program executes: their text, their parameters, the rows that a server answers,
and what can go wrong between them. Any column of a row may be null, also where the program needs a value.
-/
import Pipeworks.Pipeline.Record
import Pipeworks.Text.Utf8
import Pipeworks.Time.Span

namespace Pipeworks.Sql

/-! ## Faults -/

inductive Fault where
  /-- The database answered with an error. -/
  | refused (message : String)
  /-- There is no row where there has to be one. -/
  | noRow
  /-- A column is null that must not be; it is named as in messages. -/
  | nullColumn (column : String)
  /-- No connection became free in time. -/
  | noConnection
  deriving DecidableEq

/-- The fault of a sequence that has no number left. -/
def Fault.exhausted : Fault := .refused "nextval: reached maximum value of sequence"

def Fault.message : Fault → String
  | .refused message => "error returned from database: " ++ message
  | .noRow => "no rows returned by a query that expected to return at least one row"
  | .nullColumn column =>
    "error occurred while decoding column " ++ column ++
      ": unexpected null; try decoding as an \x60Option\x60"
  | .noConnection => "pool timed out while waiting for an open connection"

/-! ## Rows as they are answered -/

structure CredentialColumns where
  accessToken : Option String
  refreshToken : Option String
  tokenType : Option String
  expiry : Option Time.Instant

structure PipelineColumns where
  id : Option Int64
  repoId : Option Int64
  status : Option String
  commit : Option String
  cloneUrl : Option String
  url : Option String
  startedAt : Option Time.Instant
  finishedAt : Option Time.Instant

structure LogColumns where
  pipelineId : Option Int64
  order : Option Int32
  cmd : Option String
  output : Option String
  exitCode : Option Int32

/-- A repository with the credential of its owner. -/
structure RepoColumns where
  repoId : Option Int64
  owner : Option String
  repoName : Option String
  archived : Option Bool
  credential : CredentialColumns

/-- A pipeline's commit and address with its repository. -/
structure ContextColumns where
  commit : Option String
  url : Option String
  provider : Option String
  owner : Option String
  repoName : Option String
  credential : CredentialColumns

structure MessageColumns where
  id : Option Int64
  payload : Option Bytes
  deliveries : Option Nat

/-! ## Statements -/

inductive Query where
  | startTransaction
  | finishTransaction
  | dropTransaction
  | insertPipeline (repoId : Int64) (status commit cloneUrl : String)
  | setUrl (url : String) (id : Int64)
  | selectPipeline (id : Int64)
  | deletePipeline (id : Int64)
  /-- Sets a status and the time of the start, if the status so far is allowed. -/
  | markStarted (status : String) (time : Time.Instant) (id : Int64) (allowed : List String)
  /-- Sets a status and the time of the end, if the status so far is allowed. -/
  | markFinished (status : String) (time : Time.Instant) (id : Int64) (allowed : List String)
  | selectRepo (provider : String) (providerRepoId : Int64)
  | selectContext (pipelineId : Int64)
  | insertLog (entry : LogEntry)
  | selectLogs (pipelineId : Int64)
  | insertMessage (queue : String) (payload : Bytes)
  /-- Leases the first message of a queue that is not leased. -/
  | leaseMessage (queue : String) (lease : Time.Span)
  | deleteMessage (id : Int64)
  | releaseMessage (id : Int64)

namespace Query

/-- What a statement answers: rows, or how many it has changed. -/
abbrev Rows : Query → Type
  | .startTransaction => Unit
  | .finishTransaction => Unit
  | .dropTransaction => Unit
  | .insertPipeline _ _ _ _ => List (Option Int64)
  | .setUrl _ _ => Nat
  | .selectPipeline _ => List PipelineColumns
  | .deletePipeline _ => Nat
  | .markStarted _ _ _ _ => Nat
  | .markFinished _ _ _ _ => Nat
  | .selectRepo _ _ => List RepoColumns
  | .selectContext _ => List ContextColumns
  | .insertLog _ => Nat
  | .selectLogs _ => List LogColumns
  | .insertMessage _ _ => Nat
  | .leaseMessage _ _ => List MessageColumns
  | .deleteMessage _ => Nat
  | .releaseMessage _ => Nat

abbrev Answer (q : Query) : Type := Except Fault q.Rows

def text : Query → String
  | .startTransaction => "BEGIN"
  | .finishTransaction => "COMMIT"
  | .dropTransaction => "ROLLBACK"
  | .insertPipeline _ _ _ _ =>
    "INSERT INTO pipelines (repo_id, status, commit_sha, clone_url, target_url) " ++
      "VALUES ($1, $2, $3, $4, '') RETURNING id"
  | .setUrl _ _ => "UPDATE pipelines SET target_url = $1 WHERE id = $2"
  | .selectPipeline _ =>
    "SELECT id, repo_id, status, commit_sha, clone_url, target_url, started_at, finished_at " ++
      "FROM pipelines WHERE id = $1"
  | .deletePipeline _ => "DELETE FROM pipelines WHERE id = $1"
  | .markStarted _ _ _ _ =>
    "UPDATE pipelines SET status = $1, started_at = $2 WHERE id = $3 AND status = ANY($4)"
  | .markFinished _ _ _ _ =>
    "UPDATE pipelines SET status = $1, finished_at = $2 WHERE id = $3 AND status = ANY($4)"
  | .selectRepo _ _ =>
    "SELECT r.id AS repo_id, r.owner, r.name AS repo_name, r.archived, " ++
      "u.access_token, u.refresh_token, u.token_type, u.token_expiry " ++
      "FROM repos r JOIN service_users u ON u.id = r.service_user_id " ++
      "WHERE r.provider = $1 AND r.provider_repo_id = $2"
  | .selectContext _ =>
    "SELECT p.commit_sha, p.target_url, r.provider, r.owner, r.name AS repo_name, " ++
      "u.access_token, u.refresh_token, u.token_type, u.token_expiry " ++
      "FROM pipelines p JOIN repos r ON r.id = p.repo_id " ++
      "JOIN service_users u ON u.id = r.service_user_id WHERE p.id = $1"
  | .insertLog _ =>
    "INSERT INTO pipeline_logs (pipeline_id, ord, cmd, output, exit_code) " ++
      "VALUES ($1, $2, $3, $4, $5) ON CONFLICT (pipeline_id, ord) DO NOTHING"
  | .selectLogs _ =>
    "SELECT pipeline_id, ord, cmd, output, exit_code FROM pipeline_logs " ++
      "WHERE pipeline_id = $1 ORDER BY ord ASC"
  | .insertMessage _ _ => "INSERT INTO work_queue (queue, payload) VALUES ($1, $2)"
  | .leaseMessage _ _ =>
    "UPDATE work_queue SET locked_until = now() + make_interval(secs => $2), " ++
      "delivery_count = delivery_count + 1 WHERE id = ( SELECT id FROM work_queue " ++
      "WHERE queue = $1 AND (locked_until IS NULL OR locked_until < now()) " ++
      "ORDER BY id FOR UPDATE SKIP LOCKED LIMIT 1 ) RETURNING id, payload, delivery_count"
  | .deleteMessage _ => "DELETE FROM work_queue WHERE id = $1"
  | .releaseMessage _ => "UPDATE work_queue SET locked_until = NULL WHERE id = $1"

end Query

/-- A parameter of a statement. -/
inductive Param where
  | integer (n : Int)
  | text (s : String)
  | texts (l : List String)
  /-- An instant, written to the microsecond. -/
  | instant (written : String)
  | bytes (b : Bytes)
  | seconds (s : Time.Span)

/-- The parameters of a statement, by their numbers in its text. -/
def Query.params : Query → List Param
  | .startTransaction => []
  | .finishTransaction => []
  | .dropTransaction => []
  | .insertPipeline repoId status commit cloneUrl =>
    [.integer repoId.toInt, .text status, .text commit, .text cloneUrl]
  | .setUrl url id => [.text url, .integer id.toInt]
  | .selectPipeline id => [.integer id.toInt]
  | .deletePipeline id => [.integer id.toInt]
  | .markStarted status time id allowed =>
    [.text status, .instant time.microText, .integer id.toInt, .texts allowed]
  | .markFinished status time id allowed =>
    [.text status, .instant time.microText, .integer id.toInt, .texts allowed]
  | .selectRepo provider providerRepoId => [.text provider, .integer providerRepoId.toInt]
  | .selectContext id => [.integer id.toInt]
  | .insertLog e =>
    [.integer e.pipelineId.toInt, .integer e.order.toInt, .text e.cmd, .text e.output,
      .integer e.exitCode.toInt]
  | .selectLogs id => [.integer id.toInt]
  | .insertMessage queue payload => [.text queue, .bytes payload]
  | .leaseMessage queue lease => [.text queue, .seconds lease]
  | .deleteMessage id => [.integer id.toInt]
  | .releaseMessage id => [.integer id.toInt]

/-! ## Columns that must not be null -/

/-- A pipeline as it is kept: its status is a word. -/
structure PipelineRow where
  id : Int64
  repoId : Int64
  status : String
  commit : String
  cloneUrl : String
  url : String
  startedAt : Option Time.Instant
  finishedAt : Option Time.Instant
  deriving DecidableEq

/-- The value of a column, which a message names between quotes. -/
def needed {α : Type} (column : String) : Option α → Except Fault α
  | none => .error (.nullColumn ("\"" ++ column ++ "\""))
  | some a => .ok a

def CredentialColumns.read (c : CredentialColumns) : Except Fault Token := do
  let accessToken ← needed "access_token" c.accessToken
  let tokenType ← needed "token_type" c.tokenType
  pure ⟨accessToken, c.refreshToken, tokenType, c.expiry⟩

def PipelineColumns.read (c : PipelineColumns) : Except Fault PipelineRow := do
  let id ← needed "id" c.id
  let repoId ← needed "repo_id" c.repoId
  let status ← needed "status" c.status
  let commit ← needed "commit_sha" c.commit
  let cloneUrl ← needed "clone_url" c.cloneUrl
  let url ← needed "target_url" c.url
  pure ⟨id, repoId, status, commit, cloneUrl, url, c.startedAt, c.finishedAt⟩

def LogColumns.read (c : LogColumns) : Except Fault LogEntry := do
  let pipelineId ← needed "pipeline_id" c.pipelineId
  let order ← needed "ord" c.order
  let cmd ← needed "cmd" c.cmd
  let output ← needed "output" c.output
  let exitCode ← needed "exit_code" c.exitCode
  pure ⟨pipelineId, order, cmd, output, exitCode⟩

/-- The rows of a log up to the first that cannot be read. -/
def readLogs : List LogColumns → Except Fault (List LogEntry)
  | [] => .ok []
  | c :: cs => do
    let e ← c.read
    let es ← readLogs cs
    pure (e :: es)

end Pipeworks.Sql
