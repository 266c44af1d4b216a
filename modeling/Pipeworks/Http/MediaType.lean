/-
The media type that a body is declared to have.
-/
import Pipeworks.Http.Header

namespace Pipeworks.Http

structure MediaType where
  top : String
  sub : String
  /-- What stands behind the last plus of the subtype. -/
  suffix : Option String
  deriving DecidableEq

namespace MediaType

/-- A character of a name. -/
def isToken (c : Char) : Bool := c.isAlphanum || "!#$%&'*+-.^_\x60|~".toList.contains c

/-- A character of a quoted value. -/
def isQuotable (c : Char) : Bool := 32 ≤ c.toNat && c.toNat != 127

/-- What follows a quoted value whose opening quote has been read; it has one character at least. -/
def afterQuoted? : List Char → Option (List Char)
  | c :: cs =>
    let rest := cs.dropWhile fun c => c != '"' && isQuotable c
    match isQuotable c, rest with
    | true, '"' :: rest => some rest
    | _, _ => none
  | [] => none

/-- What follows the value of a parameter, with the separator. -/
def afterValue? (cs : List Char) : Option (List Char) :=
  match cs with
  | '"' :: quoted =>
    match (afterQuoted? quoted).map (·.dropWhile (· == ' ')) with
    | some [] => some []
    | some (';' :: rest) => some rest
    | _ => none
  | cs =>
    match cs.takeWhile isToken, cs.dropWhile isToken with
    | _, [] => some []
    | _ :: _, ';' :: rest => some rest
    | _, _ => none

/-- What follows the first parameter, with the separator. -/
def afterParameter? (cs : List Char) : Option (List Char) :=
  match cs.takeWhile isToken, cs.dropWhile isToken with
  | _ :: _, '=' :: value => afterValue? value
  | _, _ => none

/-- Whether a text is a list of parameters; every one takes up a character, of which there are
`count`. -/
def areParameters : Nat → List Char → Bool
  | 0, cs => cs.isEmpty
  | count + 1, cs =>
    match cs.dropWhile (· == ' ') with
    | [] => true
    | cs =>
      match afterParameter? cs with
      | some rest => areParameters count rest
      | none => false

/-- The subtype up to its last plus, and what stands behind it. -/
def splitSuffix (sub : List Char) : List Char × Option (List Char) :=
  match sub with
  | [] => ([], none)
  | c :: cs =>
    if cs.contains '+' then
      let reversed := cs.reverse
      (c :: (reversed.dropWhile (· != '+')).tail.reverse,
        some (reversed.takeWhile (· != '+')).reverse)
    else (sub, none)

def lowerText (cs : List Char) : String := String.ofList (cs.map Char.toLower)

/-- The media type that a text names. -/
def ofText? (s : String) : Option MediaType :=
  let cs := s.toList
  match cs.takeWhile isToken, cs.dropWhile isToken with
  | t :: ts, '/' :: rest =>
    let sub := rest.takeWhile isToken
    let (main, suffix) := splitSuffix sub
    let mediaType : MediaType := ⟨lowerText (t :: ts), lowerText main, suffix.map lowerText⟩
    match rest.dropWhile isToken with
    | [] => some mediaType
    | ';' :: parameters =>
      if !sub.isEmpty && areParameters parameters.length parameters then some mediaType else none
    | _ => none
  | _, _ => none

def isJson (m : MediaType) : Bool :=
  m.top == "application" && (m.sub == "json" || m.suffix == some "json")

end MediaType

/-- Whether the headers declare the body to be JSON. -/
def Headers.declareJson (headers : Headers) : Bool :=
  ((headers.text? "content-type").bind MediaType.ofText?).any MediaType.isJson

end Pipeworks.Http
