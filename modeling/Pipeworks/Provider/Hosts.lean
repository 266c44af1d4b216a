/-
What is asked of providers: to show a status beside a commit, and to set up and remove the hook that
tells of pushes.
-/
import Pipeworks.Http.Exchange
import Pipeworks.Pipeline.Record
import Pipeworks.Provider.Event
import Pipeworks.Url.Endpoint

namespace Pipeworks

/-- A status as it is shown beside a commit. -/
structure CommitStatus where
  owner : String
  repo : String
  commit : String
  status : Status
  targetUrl : String
  context : String
  description : String
  deriving DecidableEq

namespace Provider

inductive Fault where
  /-- The request did not get through, or its reply cannot be read. -/
  | http
  /-- The provider refused. -/
  | refused (status : Nat) (message : String)
  | address (f : Url.BaseFault)
  deriving DecidableEq

def Fault.message : Fault → String
  | .http => "HTTP request failed"
  | .refused status message =>
    "provider API error (" ++ toString status ++ "): " ++ message
  | .address f => f.message

/-- Where the providers are asked. -/
structure Hosts where
  github : Url
  gitlab : Url

namespace Hosts

/-- The hosts at the configured addresses. -/
def ofText (github gitlab : String) : Except Url.BaseFault Hosts := do
  let github ← Url.ofBase github
  let site ← Url.ofBase gitlab
  let gitlab ← Url.endpoint site ["api", "v4"]
  .ok ⟨github, gitlab⟩

/-- The providers that are always there. -/
def providers : List Provider := [.github, .gitlab]

end Hosts

/-- The provider of a name among those given. -/
def ofName? (providers : List Provider) (name : String) : Option Provider :=
  providers.find? (·.name == name)

/-! ## Requests -/

/-- The headers of every request to a provider. -/
def headers (p : Provider) (token : Token) : List (String × String) :=
  Http.bearer token.accessToken ::
    match p with
    | .github => [("accept", "application/vnd.github+json")]
    | _ => []

/-- The address of something that belongs to a repository. -/
def repoUrl (hosts : Hosts) (p : Provider) (owner repo : String) (rest : List String) :
    Except Url.BaseFault Url :=
  match p with
  | .gitlab => Url.endpoint hosts.gitlab ("projects" :: (owner ++ "/" ++ repo) :: rest)
  | _ => Url.endpoint hosts.github ("repos" :: owner :: repo :: rest)

/-- The status in the words of the provider. -/
def statusBody (p : Provider) (s : CommitStatus) : Json.Value :=
  let context := match p with
    | .gitlab => "name"
    | _ => "context"
  .object [("state", .string (p.stateName s.status)), ("target_url", .string s.targetUrl),
    ("description", .string s.description), (context, .string s.context)]

/-- The hook in the words of the provider. -/
def hookBody (p : Provider) (hookUrl secret : String) : Json.Value :=
  match p with
  | .gitlab => .object [("url", .string hookUrl), ("token", .string secret),
      ("push_events", .bool true), ("enable_ssl_verification", .bool true)]
  | _ => .object [("name", .string "web"), ("active", .bool true),
      ("events", .array [.string "push"]),
      ("config", .object [("url", .string hookUrl), ("content_type", .string "json"),
        ("secret", .string secret)])]

/-- Sends a request about a repository; only a reply of success is good. -/
def send (network : Http.Network) (hosts : Hosts) (p : Provider) (token : Token)
    (method : Http.Method) (owner repo : String) (rest : List String) (body : Option Json.Value) :
    Except Fault Http.Reply :=
  match repoUrl hosts p owner repo rest with
  | .error f => .error (.address f)
  | .ok url =>
    match network ⟨method, url, p.headers token, body⟩ with
    | none => .error .http
    | some reply =>
      if reply.isSuccess then .ok reply else .error (.refused reply.status reply.text)

/-! ## Calls -/

/-- Shows a status beside a commit. -/
def createStatus (network : Http.Network) (hosts : Hosts) (p : Provider) (token : Token)
    (s : CommitStatus) : Except Fault Unit :=
  (p.send network hosts token .post s.owner s.repo ["statuses", s.commit]
    (some (p.statusBody s))).map fun _ => ()

def readHook (n : Json.Node) : Except Json.Fault Int64 := do
  let found ← Json.recordFields "HookCreated" [.of "id" Json.int64] n
  Json.required found "id" Json.int64

/-- Sets up the hook that tells of pushes, and answers its id. -/
def createHook (network : Http.Network) (hosts : Hosts) (p : Provider) (token : Token)
    (owner repo hookUrl secret : String) : Except Fault Int64 := do
  let reply ← p.send network hosts token .post owner repo ["hooks"]
    (some (p.hookBody hookUrl secret))
  match (Json.Document.ofBytes reply.body).read readHook with
  | .ok id => .ok id
  | .error _ => .error .http

/-- Removes a hook. -/
def deleteHook (network : Http.Network) (hosts : Hosts) (p : Provider) (token : Token)
    (owner repo : String) (hook : Int64) : Except Fault Unit :=
  (p.send network hosts token .delete owner repo ["hooks", toString hook.toInt] none).map
    fun _ => ()

end Provider

end Pipeworks
