/-
Requests to other services, and their replies.
-/
import Pipeworks.Json.Value
import Pipeworks.Text.Utf8
import Pipeworks.Url.Basic

namespace Pipeworks.Http

inductive Method where
  | get
  | head
  | post
  | delete
  /-- Any other one. -/
  | other (name : String)
  deriving DecidableEq

def Method.name : Method → String
  | .get => "GET"
  | .head => "HEAD"
  | .post => "POST"
  | .delete => "DELETE"
  | .other name => name

def Method.ofName (name : String) : Method :=
  match [Method.get, .head, .post, .delete].find? (·.name == name) with
  | some m => m
  | none => .other name

/-- A request that is sent; its body, if it has one, is JSON. -/
structure Request where
  method : Method
  url : Url
  headers : List (String × String) := []
  body : Option Json.Value := none

structure Reply where
  status : Nat
  body : Bytes

/-- A reply that says that the request was carried out. -/
def Reply.isSuccess (r : Reply) : Bool := 200 ≤ r.status && r.status < 300

def Reply.text (r : Reply) : String := Text.ofBytesLossy r.body

/-- The services out there: the reply to a request, or none if it does not get through. -/
abbrev Network := Request → Option Reply

/-- The header with which a token is shown. -/
def bearer (token : String) : String × String := ("authorization", "Bearer " ++ token)

end Pipeworks.Http
