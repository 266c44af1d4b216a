/-
Fetching one commit with git: an empty repository is made, the commit fetched at depth one and
checked out. The token reaches git through the environment of the one call that needs it, and is
blotted out of what git complains of.
-/
import Pipeworks.Pipeline.Record
import Pipeworks.Text.Start
import Pipeworks.Tool.Invocation
import Pipeworks.Url.Reader

namespace Pipeworks.Tool.Git

inductive Fault where
  | cloneUrl (f : Url.Fault)
  | launch (f : LaunchFault)
  /-- A command failed; its complaint holds no secret. -/
  | failed (command complaint : String)
  deriving DecidableEq

def Fault.message : Fault → String
  | .cloneUrl f => "Invalid clone URL: " ++ f.message
  | .launch f => "Failed to execute git: " ++ f.message
  | .failed command complaint => "git " ++ command ++ " failed: " ++ complaint

/-- The text with every occurrence of the secret blotted out. -/
def redact (text secret : String) : String :=
  String.ofList (Text.replaceEach secret.toList "***".toList text.toList)

/-! ## Command lines -/

/-- The commands of one fetch. -/
inductive Command where
  | init
  | fetch (url : Url) (commit : String)
  | checkout (commit : String)

namespace Command

def name : Command → String
  | .init => "init"
  | .fetch _ _ => "fetch"
  | .checkout _ => "checkout"

/-- The options of a command, which do not depend on what is fetched. -/
def options : Command → List String
  | .init => ["--quiet"]
  | .fetch _ _ => ["--quiet", "--depth", "1", "--no-tags"]
  | .checkout _ => ["--quiet", "--detach"]

/-- The operands of a command. -/
def operands : Command → List String
  | .init => []
  | .fetch url commit => [url.text, commit]
  | .checkout commit => [commit]

def arguments (directory : String) (c : Command) : List String :=
  ["-C", directory, c.name] ++ c.options ++ c.operands

end Command

/-! ## Credentials -/

/-- The variable that the credential helper reads the token from. -/
def tokenVariable : String := "KILN_GIT_TOKEN"

/-- Answers git's question for credentials with the token as a password. -/
def credentialHelper : String :=
  "!f() \x7b test \"$1\" = get && printf 'username=oauth2\\npassword=%s\\n' \"$" ++ tokenVariable ++
    "\"; \x7d; f"

/-- The variables that set up the helper, after clearing those set up elsewhere. -/
def credentials (secret : String) : List (String × String) :=
  if secret.isEmpty then []
  else [
    ("GIT_CONFIG_COUNT", "2"),
    ("GIT_CONFIG_KEY_0", "credential.helper"),
    ("GIT_CONFIG_VALUE_0", ""),
    ("GIT_CONFIG_KEY_1", "credential.helper"),
    ("GIT_CONFIG_VALUE_1", credentialHelper),
    (tokenVariable, secret)]

/-- Whether the token is for addresses of this kind. -/
def takesToken (url : Url) : Bool := url.scheme == "http" || url.scheme == "https"

/-- The variables of a command; only a fetch from a web server gets the token. -/
def environment (secret : String) (c : Command) : List (String × String) :=
  ("GIT_TERMINAL_PROMPT", "0") ::
    match c with
    | .fetch url _ => if takesToken url then credentials secret else []
    | _ => []

/-! ## Fetching -/

/-- What an ending of a command means. -/
def settle (secret : String) (c : Command) : Except LaunchFault Ending → Except Fault Unit
  | .error f => .error (.launch f)
  | .ok ending =>
    if ending.succeeded then .ok ()
    else .error (.failed c.name (redact ending.complaintText secret))

/-- Runs commands up to the first one that fails. -/
def runAll (directory secret : String) : List Command → Session (Except Fault Unit)
  | [] => .done (.ok ())
  | c :: cs =>
    .ask ⟨c.arguments directory, environment secret c⟩ fun answer =>
      match settle secret c answer with
      | .error f => .done (.error f)
      | .ok () => runAll directory secret cs

/-- Checks out a commit in an empty directory. -/
def fetch (cloneUrl commit : String) (token : Token) (directory : String) :
    Session (Except Fault Unit) :=
  match Url.ofText cloneUrl with
  | .error f => .done (.error (.cloneUrl f))
  | .ok url => runAll directory token.accessToken [.init, .fetch url commit, .checkout commit]

end Pipeworks.Tool.Git
