/-
Requests that come in and the responses to them: the limit of a body, the body as JSON, and the texts
with which a request is turned down.
-/
import Pipeworks.Http.Exchange
import Pipeworks.Http.MediaType
import Pipeworks.Http.Route
import Pipeworks.Json.Shape

namespace Pipeworks.Http

structure Arrival where
  method : Method
  /-- The path, with the query if there is one. -/
  target : String
  headers : Headers
  body : Bytes

inductive Content where
  | empty
  | text (content : Bytes)
  | json (v : Json.Value)

structure Response where
  status : Nat
  /-- The declared type of the content. -/
  contentType : Option String := none
  content : Content := .empty
  /-- The methods that are allowed, where the one of the request is not. -/
  allow : Option String := none

namespace Response

def ofBytes (status : Nat) (content : Bytes) : Response where
  status := status
  contentType := some "text/plain; charset=utf-8"
  content := .text content

def ofText (status : Nat) (s : String) : Response := ofBytes status (Text.bytes s)

def ofJson (status : Nat) (v : Json.Value) : Response where
  status := status
  contentType := some "application/json"
  content := .json v

/-- The response as it is sent to one who asked for the head only. -/
def headOnly (r : Response) : Response := { r with content := .empty }

end Response

/-! ## Refusals -/

/-- Why a request never reaches a service. -/
inductive Refusal where
  | notUtf8 (parameter : String)
  | notNumber (text : String)
  | notJson
  | tooLong
  | malformed
  | wrongShape (f : Json.Fault)

def Refusal.response : Refusal → Response
  | .notUtf8 parameter => .ofText 400 ("Invalid URL: Invalid UTF-8 in " ++ Json.backquoted parameter)
  | .notNumber text =>
    .ofText 400 ("Invalid URL: Cannot parse " ++ Json.backquoted text ++ " to a " ++
      Json.backquoted "i64")
  | .notJson =>
    .ofText 415 ("Expected request with " ++ Json.backquoted "Content-Type: application/json")
  | .tooLong => .ofText 413 "Failed to buffer the request body: length limit exceeded"
  | .malformed => .ofText 400 "Failed to parse the request body as JSON"
  | .wrongShape f =>
    .ofText 422 ("Failed to deserialize the JSON body into the target type: " ++ f.located)

/-! ## Parts of a request -/

/-- The bytes that a body may have. -/
def maxBody : Nat := 2 * 1024 * 1024

/-- Whether a list is longer than a number. -/
def longerThan {α : Type} : Nat → List α → Bool
  | _, [] => false
  | 0, _ :: _ => true
  | n + 1, _ :: as => longerThan n as

/-- The body, if it is within the limit. -/
def Arrival.limitedBody (a : Arrival) : Except Refusal Bytes :=
  if longerThan maxBody a.body then .error .tooLong else .ok a.body

/-- The value that the body is, read as JSON. -/
def Arrival.jsonBody {α : Type} (a : Arrival) (read : Json.Node → Except Json.Fault α) :
    Except Refusal α :=
  if a.headers.declareJson then do
    let body ← a.limitedBody
    match (Json.Document.ofBytes body).read read with
    | .ok v => .ok v
    | .error f => .error (if f.cause = .malformed then .malformed else .wrongShape f)
  else .error .notJson

/-- A captured segment as text. -/
def textParameter (name segment : String) : Except Refusal String :=
  match decodeSegment? segment with
  | some s => .ok s
  | none => .error (.notUtf8 name)

/-- A captured segment as a number. -/
def int64Parameter (name segment : String) : Except Refusal Int64 := do
  let s ← textParameter name segment
  match int64? s with
  | some n => .ok n
  | none => .error (.notNumber s)

end Pipeworks.Http
