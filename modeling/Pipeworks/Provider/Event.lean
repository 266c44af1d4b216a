/-
What providers send: whether a delivery is genuine, and the event that it reports.
-/
import Pipeworks.Digest.Sha256
import Pipeworks.Http.Header
import Pipeworks.Json.Shape
import Pipeworks.Pipeline.Status
import Pipeworks.Text.Start

namespace Pipeworks

open Http (Headers)
open Json (Field Node)

/-- A service that hosts repositories. The plain one is for trials. -/
inductive Provider where
  | github
  | gitlab
  | plain
  deriving DecidableEq

/-- A push to a repository. -/
structure Push where
  providerRepoId : Int64
  commit : String
  cloneUrl : String
  gitRef : String
  deriving DecidableEq

inductive WebhookEvent where
  | ping
  | push (p : Push)
  /-- A push that leaves nothing to build. -/
  | ignored (reason : String)
  | unsupported (name : String)
  deriving DecidableEq

/-- Why a payload is no event. -/
inductive PayloadFault where
  | missingHeader (name : String)
  | missingEvent
  | malformed (f : Json.Fault)
  deriving DecidableEq

def PayloadFault.message (f : PayloadFault) : String :=
  "invalid payload: " ++ match f with
    | .missingHeader name => "missing " ++ name ++ " header"
    | .missingEvent => "missing event"
    | .malformed f => f.message

namespace Provider

def name : Provider → String
  | .github => "github"
  | .gitlab => "gitlab"
  | .plain => "fake"

/-- The provider's own word for a status. -/
def stateName (p : Provider) (s : Status) : String :=
  match p, s with
  | .github, .pending => "pending"
  | .github, .running => "pending"
  | .github, .success => "success"
  | .github, .error => "failure"
  | .gitlab, .error => "failed"
  | _, s => s.name

/-! ## Genuineness -/

/-- Whether two byte strings are equal; every byte is looked at. -/
def sameBytes (a b : Bytes) : Bool :=
  a.length == b.length && (List.zipWith (· ^^^ ·) a b).foldl (· ||| ·) 0 == 0

/-- The digest that a signature claims. -/
def claimedDigest? (signature : String) : Option Bytes :=
  (Text.after? "sha256=".toList signature.toList).bind Hex.decode?

/-- Whether a delivery was sent by one who knows the secret. -/
def verify (p : Provider) (headers : Headers) (body : Bytes) (secret : String) : Bool :=
  match p with
  | .github =>
    match (headers.text? "x-hub-signature-256").bind claimedDigest? with
    | some claimed => sameBytes (Sha256.hmac (Text.bytes secret) body) claimed
    | none => false
  | .gitlab =>
    match headers.text? "x-gitlab-token" with
    | some token => sameBytes (Text.bytes token) (Text.bytes secret)
    | none => false
  | .plain => headers.first? "x-fake-secret" == some (Text.bytes secret)

/-! ## Events -/

def readBody {α : Type} (body : Bytes) (read : Node → Except Json.Fault α) :
    Except PayloadFault α :=
  match (Json.Document.ofBytes body).read read with
  | .ok a => .ok a
  | .error f => .error (.malformed f)

/-- A record with an id and an address. -/
def readProject (type address : String) (n : Node) : Except Json.Fault (Int64 × String) := do
  let found ← Json.recordFields type [.of "id" Json.int64, .of address Json.string] n
  let id ← Json.required found "id" Json.int64
  let url ← Json.required found address Json.string
  .ok (id, url)

def deletion (gitRef : String) : WebhookEvent := .ignored (gitRef ++ " was deleted")

/-- The commit that stands for none. -/
def noCommit : String := String.ofList (List.replicate 40 '0')

def githubPush (n : Node) : Except Json.Fault WebhookEvent := do
  let repository := readProject "RepositoryPayload" "clone_url"
  let found ← Json.recordFields "PushPayload" [
    .of "ref" Json.string, .of "after" Json.string, .defaulted "deleted" Json.bool,
    .of "repository" repository] n
  let gitRef ← Json.required found "ref" Json.string
  let commit ← Json.required found "after" Json.string
  let deleted ← Json.orElse found "deleted" false Json.bool
  let (id, url) ← Json.required found "repository" repository
  .ok (if deleted || commit == noCommit then deletion gitRef else .push ⟨id, commit, url, gitRef⟩)

def gitlabPush (n : Node) : Except Json.Fault WebhookEvent := do
  let project := readProject "ProjectPayload" "git_http_url"
  let found ← Json.recordFields "PushPayload" [
    .of "ref" Json.string, .of "checkout_sha" (Json.nullable Json.string),
    .of "project" project] n
  let gitRef ← Json.required found "ref" Json.string
  let commit ← Json.optional found "checkout_sha" Json.string
  let (id, url) ← Json.required found "project" project
  .ok (match commit with
    | none => deletion gitRef
    | some commit => .push ⟨id, commit, url, gitRef⟩)

def plainPush (n : Node) : Except Json.Fault WebhookEvent := do
  let found ← Json.recordFields "FakePush" [
    .of "repo_id" Json.int64, .of "commit" Json.string] n
  let id ← Json.required found "repo_id" Json.int64
  let commit ← Json.required found "commit" Json.string
  .ok (if commit.isEmpty then .ignored "branch deleted"
    else .push ⟨id, commit, "https://git.example.com/acme/widget.git", "refs/heads/main"⟩)

/-- The event of a delivery. -/
def event (p : Provider) (headers : Headers) (body : Bytes) : Except PayloadFault WebhookEvent :=
  match p with
  | .github =>
    match headers.text? "x-github-event" with
    | none => .error (.missingHeader "x-github-event")
    | some "ping" => .ok .ping
    | some "push" => readBody body githubPush
    | some other => .ok (.unsupported other)
  | .gitlab =>
    match headers.text? "x-gitlab-event" with
    | none => .error (.missingHeader "x-gitlab-event")
    | some "Push Hook" => readBody body gitlabPush
    | some other => .ok (.unsupported other)
  | .plain =>
    match headers.text? "x-fake-event" with
    | none => .error .missingEvent
    | some "ping" => .ok .ping
    | some "push" => readBody body plainPush
    | some other => .ok (.unsupported other)

end Provider

end Pipeworks
