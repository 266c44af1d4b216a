/-
The settings of the coordinator.
-/
import Pipeworks.Settings.Environment

namespace Pipeworks.Settings

structure Coordinator where
  databaseUrl : String := defaultDatabaseUrl
  /-- Where webhooks and lookups are received. -/
  bindAddress : String := "0.0.0.0:8080"
  /-- Where the reports of runners are received. -/
  rpcBindAddress : String := "0.0.0.0:8081"
  /-- The address under which the public finds the service. -/
  externalUrl : String := "http://localhost:8080"
  /-- The secret that deliveries are signed with. -/
  webhookSecret : String := ""
  /-- The name of the check whose statuses are shown. -/
  statusContext : String := "kiln"
  transcriptDir : String := defaultTranscriptDir
  githubUrl : String := "https://api.github.com"
  gitlabUrl : String := "https://gitlab.com"
  queue : String := defaultQueue
  deriving DecidableEq

namespace Coordinator

def ofEnvironment (env : Environment) : Except Fault Coordinator :=
  match env.text? "WEBHOOK_SECRET" with
  | none => .error (.notSet "WEBHOOK_SECRET")
  | some secret =>
    let d : Coordinator := {}
    .ok {
      databaseUrl := env.textOr "DATABASE_URL" d.databaseUrl
      bindAddress := env.textOr "COORDINATOR_BIND_ADDR" d.bindAddress
      rpcBindAddress := env.textOr "RPC_BIND_ADDR" d.rpcBindAddress
      externalUrl := Text.withoutTrailing '/' (env.textOr "EXTERNAL_URL" d.externalUrl)
      webhookSecret := secret
      statusContext := env.textOr "STATUS_CONTEXT" d.statusContext
      transcriptDir := env.textOr "LOG_STORE_DIR" d.transcriptDir
      githubUrl := env.textOr "GITHUB_API_URL" d.githubUrl
      gitlabUrl := env.textOr "GITLAB_URL" d.gitlabUrl
      queue := env.textOr "WORK_QUEUE" d.queue }

/-- Checks the settings one by one; the first that is wrong is reported. -/
def validate (c : Coordinator) : Except Fault Unit := do
  demand (!c.webhookSecret.isEmpty) (.empty "webhook_secret")
  demand (isWeb c.externalUrl) (.notWeb "external_url")
  demand (!Text.isBlankText c.statusContext) (.empty "status_context")
  demand (!c.queue.isEmpty) (.empty "work_queue")
  demand (c.bindAddress != c.rpcBindAddress) (.same "bind_addr" "rpc_bind_addr")

/-- What the address of a pipeline starts with, before its id. -/
def pipelineUrlBase (c : Coordinator) : String := c.externalUrl ++ "/pipelines/"

end Coordinator

end Pipeworks.Settings
