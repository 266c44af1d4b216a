/-
The JSON form of pipelines, logs, work and reports: `toJson` writes and `read` reads. Absent optional
fields of a token and of a finished report are left out; those of a pipeline are null.
-/
import Pipeworks.Json.Shape
import Pipeworks.Json.Value
import Pipeworks.Pipeline.Report

namespace Pipeworks

open Json (Node Fault Field Found Origin Value)

def Time.Instant.toJson (t : Time.Instant) : Value := .string t.text

def jsonInt64 (n : Int64) : Value := .int n.toInt

def jsonInt32 (n : Int32) : Value := .int n.toInt

/-! ## Names -/

def Status.toJson (s : Status) : Value := .string s.name

def Status.read (origin : Origin) : Node → Except Fault Status := Json.variant origin Status.names

def Outcome.toJson (o : Outcome) : Value := .string o.name

def Outcome.read : Node → Except Fault Outcome := Json.variant .text Outcome.names

def FailureCategory.toJson (c : FailureCategory) : Value := .string c.name

def FailureCategory.read : Node → Except Fault FailureCategory :=
  Json.variant .text FailureCategory.names

/-! ## Pipelines -/

def Pipeline.members (p : Pipeline) : List (String × Value) := [
  ("id", jsonInt64 p.id),
  ("status", p.status.toJson),
  ("commit", .string p.commit),
  ("clone_url", .string p.cloneUrl),
  ("url", .string p.url),
  ("started_at", .optional Time.Instant.toJson p.startedAt),
  ("finished_at", .optional Time.Instant.toJson p.finishedAt),
  ("repo_id", jsonInt64 p.repoId)]

def Pipeline.toJson (p : Pipeline) : Value := .object p.members

def Pipeline.fields (origin : Origin) : List Field := [
  .of "id" Json.int64,
  .of "status" (Status.read origin),
  .of "commit" Json.string,
  .of "clone_url" Json.string,
  .of "url" Json.string,
  .of "started_at" (Json.nullable Json.instant),
  .of "finished_at" (Json.nullable Json.instant),
  .of "repo_id" Json.int64]

def Pipeline.ofFound (origin : Origin) (found : Found) : Except Fault Pipeline := do
  let id ← Json.required found "id" Json.int64
  let status ← Json.required found "status" (Status.read origin)
  let commit ← Json.required found "commit" Json.string
  let cloneUrl ← Json.required found "clone_url" Json.string
  let url ← Json.required found "url" Json.string
  let startedAt ← Json.optional found "started_at" Json.instant
  let finishedAt ← Json.optional found "finished_at" Json.instant
  let repoId ← Json.required found "repo_id" Json.int64
  .ok ⟨id, status, commit, cloneUrl, url, startedAt, finishedAt, repoId⟩

def Pipeline.read (n : Node) : Except Fault Pipeline := do
  let found ← Json.recordFields "Pipeline" (Pipeline.fields .text) n
  Pipeline.ofFound .text found

/-! ## Logs -/

def LogEntry.toJson (e : LogEntry) : Value := .object [
  ("pipeline_id", jsonInt64 e.pipelineId),
  ("order", jsonInt32 e.order),
  ("cmd", .string e.cmd),
  ("output", .string e.output),
  ("exit_code", jsonInt32 e.exitCode)]

def LogEntry.fields : List Field := [
  .of "pipeline_id" Json.int64,
  .of "order" Json.int32,
  .of "cmd" Json.string,
  .of "output" Json.string,
  .of "exit_code" Json.int32]

def LogEntry.ofFound (found : Found) : Except Fault LogEntry := do
  let pipelineId ← Json.required found "pipeline_id" Json.int64
  let order ← Json.required found "order" Json.int32
  let cmd ← Json.required found "cmd" Json.string
  let output ← Json.required found "output" Json.string
  let exitCode ← Json.required found "exit_code" Json.int32
  .ok ⟨pipelineId, order, cmd, output, exitCode⟩

def LogEntry.read (n : Node) : Except Fault LogEntry := do
  let found ← Json.recordFields "PipelineLog" LogEntry.fields n
  LogEntry.ofFound found

/-! ## Details -/

/-- The members of the pipeline and its log side by side. -/
def PipelineDetails.toJson (d : PipelineDetails) : Value :=
  .object (d.pipeline.members ++ [("logs", .array (d.logs.map LogEntry.toJson))])

/-- How deep a member may be nested that is kept until the whole object has been read. -/
def keptDepth : Nat := 126

/-- Reads the log as it comes and keeps the other members. -/
def PipelineDetails.collect (logs : Option (List LogEntry)) (kept : List (Option String × Node)) :
    List (Option String × Node) →
      Except Fault (Option (List LogEntry) × List (Option String × Node))
  | [] => .ok (logs, kept.reverse)
  | (none, _) :: _ => Json.Fault.at .malformed
  | (some "logs", n) :: rest =>
    if logs.isSome then Json.Fault.at (.duplicate "logs") else do
      let ls ← Json.within (.member "logs") (Json.sequence LogEntry.read n)
      PipelineDetails.collect (some ls) kept rest
  | (some key, n) :: rest =>
    if n.keepable keptDepth then PipelineDetails.collect logs ((some key, n) :: kept) rest
    else Json.Fault.at .malformed

def PipelineDetails.read : Node → Except Fault PipelineDetails
  | .object ms closed => do
    let (logs, kept) ← PipelineDetails.collect none [] ms
    if !closed then Json.Fault.at .malformed else
    match logs with
    | none => Json.Fault.at (.missing "logs")
    | some logs => do
      let found ← Json.members (Pipeline.fields .kept) [] kept
      let pipeline ← Pipeline.ofFound .kept found
      .ok ⟨pipeline, logs⟩
  | n => n.unexpected (Json.structName "PipelineDetails")

/-! ## Work -/

def Token.toJson (t : Token) : Value := .object <|
  [("access_token", .string t.accessToken)] ++
  Value.memberIf "refresh_token" .string t.refreshToken ++
  [("token_type", .string t.tokenType)] ++
  Value.memberIf "expiry" Time.Instant.toJson t.expiry

def Token.fields : List Field := [
  .of "access_token" Json.string,
  .defaulted "refresh_token" (Json.nullable Json.string),
  .defaulted "token_type" Json.string,
  .defaulted "expiry" (Json.nullable Json.instant)]

def Token.ofFound (found : Found) : Except Fault Token := do
  let accessToken ← Json.required found "access_token" Json.string
  let refreshToken ← Json.optional found "refresh_token" Json.string
  let tokenType ← Json.orElse found "token_type" "bearer" Json.string
  let expiry ← Json.optional found "expiry" Json.instant
  .ok ⟨accessToken, refreshToken, tokenType, expiry⟩

def Token.read (n : Node) : Except Fault Token := do
  let found ← Json.recordFields "OAuthToken" Token.fields n
  Token.ofFound found

def Work.toJson (w : Work) : Value :=
  .object [("pipeline", w.pipeline.toJson), ("token", w.token.toJson)]

def Work.fields : List Field := [.of "pipeline" Pipeline.read, .of "token" Token.read]

def Work.ofFound (found : Found) : Except Fault Work := do
  let pipeline ← Json.required found "pipeline" Pipeline.read
  let token ← Json.required found "token" Token.read
  .ok ⟨pipeline, token⟩

def Work.read (n : Node) : Except Fault Work := do
  let found ← Json.recordFields "Work" Work.fields n
  Work.ofFound found

/-! ## Reports -/

def Started.toJson (r : Started) : Value :=
  .object [("pipeline_id", jsonInt64 r.pipelineId), ("started_at", r.startedAt.toJson)]

def Started.fields : List Field := [.of "pipeline_id" Json.int64, .of "started_at" Json.instant]

def Started.ofFound (found : Found) : Except Fault Started := do
  let pipelineId ← Json.required found "pipeline_id" Json.int64
  let startedAt ← Json.required found "started_at" Json.instant
  .ok ⟨pipelineId, startedAt⟩

def Started.read (n : Node) : Except Fault Started := do
  let found ← Json.recordFields "PipelineStarted" Started.fields n
  Started.ofFound found

def FailureSummary.toJson (s : FailureSummary) : Value :=
  .object [("category", s.category.toJson), ("message", .string s.message)]

def FailureSummary.fields : List Field :=
  [.of "category" FailureCategory.read, .of "message" Json.string]

def FailureSummary.ofFound (found : Found) : Except Fault FailureSummary := do
  let category ← Json.required found "category" FailureCategory.read
  let message ← Json.required found "message" Json.string
  .ok ⟨category, message⟩

def FailureSummary.read (n : Node) : Except Fault FailureSummary := do
  let found ← Json.recordFields "FailureSummary" FailureSummary.fields n
  FailureSummary.ofFound found

def Finished.toJson (r : Finished) : Value := .object <|
  [("pipeline_id", jsonInt64 r.pipelineId), ("finished_at", r.finishedAt.toJson),
    ("outcome", r.outcome.toJson)] ++
  Value.memberIf "error" FailureSummary.toJson r.error

def Finished.fields : List Field := [
  .of "pipeline_id" Json.int64,
  .of "finished_at" Json.instant,
  .of "outcome" Outcome.read,
  .defaulted "error" (Json.nullable FailureSummary.read)]

def Finished.ofFound (found : Found) : Except Fault Finished := do
  let pipelineId ← Json.required found "pipeline_id" Json.int64
  let finishedAt ← Json.required found "finished_at" Json.instant
  let outcome ← Json.required found "outcome" Outcome.read
  let error ← Json.optional found "error" FailureSummary.read
  .ok ⟨pipelineId, finishedAt, outcome, error⟩

def Finished.read (n : Node) : Except Fault Finished := do
  let found ← Json.recordFields "PipelineFinished" Finished.fields n
  Finished.ofFound found

def CommandOutput.toJson (r : CommandOutput) : Value := .object [
  ("pipeline_id", jsonInt64 r.pipelineId),
  ("order", jsonInt32 r.order),
  ("cmd", .string r.cmd),
  ("output", .string r.output),
  ("exit_code", jsonInt32 r.exitCode)]

def CommandOutput.ofFound (found : Found) : Except Fault CommandOutput := do
  let pipelineId ← Json.required found "pipeline_id" Json.int64
  let order ← Json.required found "order" Json.int32
  let cmd ← Json.required found "cmd" Json.string
  let output ← Json.required found "output" Json.string
  let exitCode ← Json.required found "exit_code" Json.int32
  .ok ⟨pipelineId, order, cmd, output, exitCode⟩

def CommandOutput.read (n : Node) : Except Fault CommandOutput := do
  let found ← Json.recordFields "CommandOutput" LogEntry.fields n
  CommandOutput.ofFound found

/-- The JSON of a report. -/
def Report.toJson : Report → Value
  | .started r => r.toJson
  | .output r => r.toJson
  | .finished r => r.toJson

end Pipeworks
