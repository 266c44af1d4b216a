/-
A pipeline, the repository it builds, the log of its commands, and the work that asks a runner to run
it.
-/
import Pipeworks.Pipeline.Status
import Pipeworks.Time.Written
import Pipeworks.Text.Quoted

namespace Pipeworks

/-- One build of a commit. -/
structure Pipeline where
  id : Int64
  status : Status
  commit : String
  cloneUrl : String
  url : String
  startedAt : Option Time.Instant
  finishedAt : Option Time.Instant
  repoId : Int64
  deriving DecidableEq

/-- The pipeline in its next status since the given time; none if it may not go there. -/
def Pipeline.advance? (p : Pipeline) (next : Status) (time : Time.Instant) : Option Pipeline :=
  if p.status.canAdvanceTo next then
    some (if next = .running then { p with status := next, startedAt := some time }
      else { p with status := next, finishedAt := some time })
  else none

/-- A repository that is registered. -/
structure Repo where
  id : Int64
  provider : String
  providerRepoId : Int64
  owner : String
  name : String
  archived : Bool
  deriving DecidableEq

/-- One command of a run and what it wrote. -/
structure LogEntry where
  pipelineId : Int64
  order : Int32
  cmd : String
  output : String
  exitCode : Int32
  deriving DecidableEq

/-- A pipeline together with its log. -/
structure PipelineDetails where
  pipeline : Pipeline
  logs : List LogEntry
  deriving DecidableEq

/-- The text without its NUL characters, which a log cannot hold. -/
def withoutNul (s : String) : String := String.ofList (s.toList.filter (· != '\x00'))

/-! ## Credentials -/

/-- The credential a repository is fetched with. -/
structure Token where
  accessToken : String
  refreshToken : Option String := none
  tokenType : String := "bearer"
  expiry : Option Time.Instant := none
  deriving DecidableEq

/-- A token whose expiry has come; one without expiry stays valid. -/
def Token.isExpiredAt (t : Token) (now : Time.Instant) : Bool :=
  match t.expiry with
  | none => false
  | some expiry => expiry.notAfter now

/-! ## Work -/

/-- What a runner needs to know to run a pipeline. -/
structure Work where
  pipeline : Pipeline
  token : Token
  deriving DecidableEq

/-! ## Text for diagnosis, without secrets -/

def diagnosticOption (s : Option String) : String :=
  match s with
  | none => "None"
  | some t => "Some(" ++ t ++ ")"

/-- A name with fields between braces. -/
def diagnosticRecord (name : String) (fields : List (String × String)) : String :=
  name ++ " \x7b " ++ ", ".intercalate (fields.map fun (k, v) => k ++ ": " ++ v) ++ " \x7d"

/-- The word for what is not shown. -/
def redacted : String := "<redacted>"

def Token.diagnostic (t : Token) : String :=
  diagnosticRecord "OAuthToken" [
    ("access_token", Text.quoted redacted),
    ("refresh_token", diagnosticOption (t.refreshToken.map fun _ => Text.quoted redacted)),
    ("token_type", Text.quoted t.tokenType),
    ("expiry", diagnosticOption (t.expiry.map (·.text)))]

def Status.diagnostic : Status → String
  | .pending => "Pending"
  | .running => "Running"
  | .success => "Success"
  | .error => "Error"

def Pipeline.diagnostic (p : Pipeline) : String :=
  diagnosticRecord "Pipeline" [
    ("id", toString p.id.toInt),
    ("status", p.status.diagnostic),
    ("commit", Text.quoted p.commit),
    ("clone_url", Text.quoted p.cloneUrl),
    ("url", Text.quoted p.url),
    ("started_at", diagnosticOption (p.startedAt.map (·.text))),
    ("finished_at", diagnosticOption (p.finishedAt.map (·.text))),
    ("repo_id", toString p.repoId.toInt)]

def Work.diagnostic (w : Work) : String :=
  diagnosticRecord "Work" [("pipeline", w.pipeline.diagnostic), ("token", w.token.diagnostic)]

end Pipeworks
