/-
Addresses: a scheme, an authority, a path, a query and a fragment, and their text.
-/
import Pipeworks.Url.Host

namespace Pipeworks

namespace Url

/-- Whom to ask: a host, and what to say there. -/
structure Authority where
  user : String := ""
  password : String := ""
  host : Host
  port : Option Nat := none
  deriving DecidableEq

/-- The segments between slashes, or a text that has none. -/
inductive Path where
  | segments (list : List String)
  | plain (text : String)
  deriving DecidableEq

end Url

open Url

structure Url where
  scheme : String
  authority : Option Authority
  path : Path
  query : Option String
  fragment : Option String
  deriving DecidableEq

namespace Url

def Authority.text (a : Authority) : String :=
  let password := if a.password.isEmpty then "" else ":" ++ a.password
  let user := a.user ++ password
  (if user.isEmpty then "" else user ++ "@") ++ a.host.text ++
    match a.port with
    | some n => ":" ++ toString n
    | none => ""

def segmentsText (segments : List String) : String :=
  String.join (segments.map fun s => "/" ++ s)

/-- The text of a path. Where no authority comes before it, it must not look like one. -/
def Path.text (bare : Bool) : Path → String
  | .plain s => s
  | .segments list =>
    let dot := match list with
      | "" :: _ :: _ => if bare then "/." else ""
      | _ => ""
    dot ++ segmentsText list

def textAfter (mark : String) : Option String → String
  | none => ""
  | some s => mark ++ s

/-- The address as it is written. -/
def text (u : Url) : String :=
  let authority := match u.authority with
    | some a => "//" ++ a.text
    | none => ""
  u.scheme ++ ":" ++ authority ++ u.path.text u.authority.isNone ++ textAfter "?" u.query ++
    textAfter "#" u.fragment

/-- Whether the path has segments, so that others can be added. -/
def isHierarchical (u : Url) : Bool :=
  match u.path with
  | .segments _ => true
  | .plain _ => false

/-- The schemes whose addresses share a common form. -/
def commonSchemes : List String := ["http", "https", "ws", "wss", "ftp", "file"]

def isCommon (scheme : String) : Bool := commonSchemes.contains scheme

def defaultPort? : String → Option Nat
  | "http" => some 80
  | "ws" => some 80
  | "https" => some 443
  | "wss" => some 443
  | "ftp" => some 21
  | _ => none

end Url

end Pipeworks
