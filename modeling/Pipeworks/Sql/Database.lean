/-
The tables, and what each statement does to them at once. A message is leased while the time of its
lease lies ahead; the clock counts nanoseconds.
-/
import Pipeworks.Program
import Pipeworks.Sql.Query

namespace Pipeworks.Sql

/-! ## Tables -/

structure Account where
  id : Int64
  credential : Token
  deriving DecidableEq

structure OwnedRepo where
  repo : Repo
  accountId : Int64
  deriving DecidableEq

structure MessageRow where
  id : Int64
  queue : String
  payload : Bytes
  lockedUntil : Option Nat
  deliveries : Nat
  deriving DecidableEq

structure Tables where
  accounts : List Account := []
  repos : List OwnedRepo := []
  pipelines : List PipelineRow := []
  logs : List LogEntry := []
  /-- The messages, by id. -/
  messages : List MessageRow := []

structure Database where
  tables : Tables := {}
  /-- The tables before the transaction in progress. -/
  saved : Option Tables := none
  /-- The last id given to a pipeline; ids are not given back. -/
  lastPipeline : Nat := 0
  lastMessage : Nat := 0
  now : Nat := 0

/-! ## Rows -/

def credentialColumns (t : Token) : CredentialColumns :=
  ⟨some t.accessToken, t.refreshToken, some t.tokenType, t.expiry⟩

def PipelineRow.columns (r : PipelineRow) : PipelineColumns :=
  ⟨some r.id, some r.repoId, some r.status, some r.commit, some r.cloneUrl, some r.url,
    r.startedAt, r.finishedAt⟩

def logColumns (e : LogEntry) : LogColumns :=
  ⟨some e.pipelineId, some e.order, some e.cmd, some e.output, some e.exitCode⟩

def MessageRow.columns (m : MessageRow) : MessageColumns :=
  ⟨some m.id, some m.payload, some m.deliveries⟩

/-- Whether a message may be leased. -/
def MessageRow.isFree (now : Nat) (m : MessageRow) : Bool := m.lockedUntil.all (· < now)

namespace Tables

/-- Changes the rows of pipelines that meet a condition, and counts them. -/
def updatePipelines (t : Tables) (condition : PipelineRow → Bool)
    (change : PipelineRow → PipelineRow) : Nat × Tables :=
  (t.pipelines.countP condition,
    { t with pipelines := t.pipelines.map fun r => if condition r then change r else r })

/-- Removes a pipeline and its log. -/
def deletePipeline (t : Tables) (id : Int64) : Nat × Tables :=
  (t.pipelines.countP (·.id == id),
    { t with
      pipelines := t.pipelines.filter (·.id != id)
      logs := t.logs.filter (·.pipelineId != id) })

/-- The repositories that meet a condition, each with its account. -/
def owned (t : Tables) (condition : Repo → Bool) : List (Repo × Account) :=
  (t.repos.filter (condition ·.repo)).flatMap fun r =>
    (t.accounts.filter (·.id == r.accountId)).map (r.repo, ·)

def selectRepo (t : Tables) (provider : String) (providerRepoId : Int64) : List RepoColumns :=
  (t.owned fun r => r.provider == provider && r.providerRepoId == providerRepoId).map
    fun (r, a) => ⟨some r.id, some r.owner, some r.name, some r.archived, credentialColumns a.credential⟩

def selectContext (t : Tables) (pipelineId : Int64) : List ContextColumns :=
  (t.pipelines.filter (·.id == pipelineId)).flatMap fun p =>
    (t.owned (·.id == p.repoId)).map fun (r, a) =>
      ⟨some p.commit, some p.url, some r.provider, some r.owner, some r.name,
        credentialColumns a.credential⟩

/-- Keeps a log entry, unless there is one of the same pipeline and order. -/
def insertLog (t : Tables) (e : LogEntry) : Nat × Tables :=
  if t.logs.any fun f => f.pipelineId == e.pipelineId && f.order == e.order then (0, t)
  else (1, { t with logs := t.logs ++ [e] })

/-- The log of a pipeline, by order. -/
def selectLogs (t : Tables) (pipelineId : Int64) : List LogColumns :=
  let entries := t.logs.filter (·.pipelineId == pipelineId)
  (entries.mergeSort fun a b => decide (a.order ≤ b.order)).map logColumns

/-- Leases the first free message of a queue up to a time. -/
def leaseMessage (t : Tables) (queue : String) (now expiry : Nat) :
    List MessageColumns × Tables :=
  match t.messages.find? fun m => m.queue == queue && m.isFree now with
  | none => ([], t)
  | some m =>
    let leased := { m with lockedUntil := some expiry, deliveries := m.deliveries + 1 }
    ([leased.columns], { t with
      messages := t.messages.map fun other => if other.id == m.id then leased else other })

def deleteMessage (t : Tables) (id : Int64) : Nat × Tables :=
  (t.messages.countP (·.id == id), { t with messages := t.messages.filter (·.id != id) })

def releaseMessage (t : Tables) (id : Int64) : Nat × Tables :=
  (t.messages.countP (·.id == id),
    { t with messages := t.messages.map fun m =>
        if m.id == id then { m with lockedUntil := none } else m })

end Tables

/-! ## Statements -/

namespace Database

/-- Puts a change of the tables into the database. -/
def change {α : Type} (d : Database) (r : α × Tables) : Except Fault α × Database :=
  (.ok r.1, { d with tables := r.2 })

/-- What a statement does. Of the constraints of the tables those of the log are kept: its key, and that it goes with
its pipeline. That a pipeline refers to a repository there is, how long the texts of its columns may be and how far the
deliveries of a message are counted is left aside, so a database may refuse what is inserted here. Times are kept as
they are given; a database cuts them to the microsecond. -/
def execute : Program.Handler Query Query.Answer Database
  | .startTransaction, d => (.ok (), { d with saved := some d.tables })
  | .finishTransaction, d => (.ok (), { d with saved := none })
  | .dropTransaction, d => (.ok (), { d with tables := d.saved.getD d.tables, saved := none })
  | .insertPipeline repoId status commit cloneUrl, d =>
    let n := d.lastPipeline + 1
    if n < Nat.pow 2 63 then
      let id := Int64.ofNat n
      let row : PipelineRow := ⟨id, repoId, status, commit, cloneUrl, "", none, none⟩
      (.ok [some id], { d with
        lastPipeline := n
        tables := { d.tables with pipelines := d.tables.pipelines ++ [row] } })
    else (.error .exhausted, d)
  | .setUrl url id, d => d.change (d.tables.updatePipelines (·.id == id) ({ · with url }))
  | .selectPipeline id, d =>
    (.ok ((d.tables.pipelines.filter (·.id == id)).map (·.columns)), d)
  | .deletePipeline id, d => d.change (d.tables.deletePipeline id)
  | .markStarted status time id allowed, d =>
    d.change (d.tables.updatePipelines (fun r => r.id == id && allowed.contains r.status)
      ({ · with status, startedAt := some time }))
  | .markFinished status time id allowed, d =>
    d.change (d.tables.updatePipelines (fun r => r.id == id && allowed.contains r.status)
      ({ · with status, finishedAt := some time }))
  | .selectRepo provider providerRepoId, d =>
    (.ok (d.tables.selectRepo provider providerRepoId), d)
  | .selectContext id, d => (.ok (d.tables.selectContext id), d)
  | .insertLog e, d => d.change (d.tables.insertLog e)
  | .selectLogs id, d => (.ok (d.tables.selectLogs id), d)
  | .insertMessage queue payload, d =>
    let n := d.lastMessage + 1
    if n < Nat.pow 2 63 then
      let row : MessageRow := ⟨Int64.ofNat n, queue, payload, none, 0⟩
      (.ok 1, { d with
        lastMessage := n
        tables := { d.tables with messages := d.tables.messages ++ [row] } })
    else (.error .exhausted, d)
  | .leaseMessage queue lease, d =>
    d.change (d.tables.leaseMessage queue d.now (d.now + lease.nanos))
  | .deleteMessage id, d => d.change (d.tables.deleteMessage id)
  | .releaseMessage id, d => d.change (d.tables.releaseMessage id)

/-- The database so many nanoseconds later. -/
def later (nanos : Nat) (d : Database) : Database := { d with now := d.now + nanos }

end Database

end Pipeworks.Sql
