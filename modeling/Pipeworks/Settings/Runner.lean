/-
The settings of a runner. A lease must outlast the time limit of a run, so it is twice the limit
unless it is set.
-/
import Pipeworks.Settings.Environment
import Pipeworks.Time.Span

namespace Pipeworks.Settings

open Time (Span)

/-- Twice the time limit, or the longest span if that is longer than any. -/
def leaseFor (limit : Span) : Span := limit.double?.getD Span.max

structure Runner where
  runnerId : String
  databaseUrl : String := defaultDatabaseUrl
  queue : String := defaultQueue
  coordinatorUrl : String
  transcriptDir : String := defaultTranscriptDir
  /-- How many pipelines are run at a time. -/
  maxParallel : Nat := 2
  /-- The time limit of a run, from the fetch to the last command. -/
  pipelineTimeout : Span := .ofSeconds 3600
  /-- The wait before an empty queue is looked at again. -/
  pollInterval : Span := .ofSeconds 2
  /-- How long a received message is hidden from other runners. -/
  queueLease : Span := leaseFor (.ofSeconds 3600)
  containerRuntime : String := "podman"
  /-- Where the checkouts are made. -/
  workspaceDir : String
  /-- The time limit of one report. -/
  reportTimeout : Span := .ofSeconds 30
  deriving DecidableEq

namespace Runner

/-- The host's directory for temporary files. As everywhere a variable that is not text counts as unset, although the
host would take it as it is. -/
def temporaryDir (env : Environment) : String := env.textOr "TMPDIR" "/tmp"

/-- The settings by default, for a runner of the given id. -/
def default (env : Environment) (runnerId : String) : Runner where
  runnerId := runnerId
  coordinatorUrl := "http://localhost:8081"
  workspaceDir := temporaryDir env

def secondsOr (env : Environment) (name : String) (fallback : Span) : Span :=
  ((env.number? name).map Span.ofSeconds).getD fallback

/-- The settings of the environment; `freshId` is the id of a runner that was given none. -/
def ofEnvironment (env : Environment) (freshId : String) : Except Fault Runner :=
  match env.text? "COORDINATOR_URL" with
  | none => .error (.notSet "COORDINATOR_URL")
  | some url =>
    let d := default env (env.textOr "RUNNER_ID" freshId)
    let limit := secondsOr env "PIPELINE_TIMEOUT" d.pipelineTimeout
    .ok { d with
      coordinatorUrl := url
      databaseUrl := env.textOr "DATABASE_URL" d.databaseUrl
      queue := env.textOr "WORK_QUEUE" d.queue
      transcriptDir := env.textOr "LOG_STORE_DIR" d.transcriptDir
      maxParallel := (env.number? "MAX_PARALLEL_PIPELINES").getD d.maxParallel
      pipelineTimeout := limit
      pollInterval := secondsOr env "QUEUE_POLL_INTERVAL" d.pollInterval
      queueLease := secondsOr env "QUEUE_LEASE" (leaseFor limit)
      containerRuntime := env.textOr "CONTAINER_RUNTIME" d.containerRuntime
      workspaceDir := env.textOr "WORKSPACE_DIR" d.workspaceDir
      reportTimeout := secondsOr env "REPORT_TIMEOUT" d.reportTimeout }

/-- Checks the settings one by one; the first that is wrong is reported. -/
def validate (r : Runner) : Except Fault Unit := do
  demand (!r.runnerId.isEmpty) (.empty "runner_id")
  demand (isWeb r.coordinatorUrl) (.notWeb "coordinator_url")
  demand (r.maxParallel != 0) (.zero "max_parallel_pipelines")
  demand (r.pipelineTimeout.nanos != 0) (.zero "pipeline_timeout")
  demand (r.pollInterval.nanos != 0) (.zero "poll_interval")
  demand (r.queueLease != Span.max) .noLease
  demand (decide (r.pipelineTimeout.nanos < r.queueLease.nanos)) .shortLease
  demand (!Text.isBlankText r.containerRuntime) (.empty "container_runtime")

end Runner

end Pipeworks.Settings
