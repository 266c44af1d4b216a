/-
Reading values of a given shape off a node. Faults are found in the order of the text: the fields of
a record as they come, a field that is missing only at the record's end.
-/
import Pipeworks.Json.Fault
import Pipeworks.Json.Reader
import Pipeworks.Time.Reader

namespace Pipeworks.Json

/-- Whether nodes are read off the text or have been kept first; kept ones are known to be sound, and
differ in what may stand for a variant. -/
inductive Origin where
  | text
  | kept
  deriving DecidableEq

/-! ## Scalars -/

def string : Node → Except Fault String
  | .string (some s) => .ok s
  | n => n.unexpected "a string"

def bool : Node → Except Fault Bool
  | .bool b => .ok b
  | n => n.unexpected "a boolean"

/-- A whole number between two bounds. -/
def integer (low high : Int) (wanted : String) (n : Node) : Except Fault Int :=
  match n with
  | .number m =>
    match m.quantity? with
    | some (.whole v) =>
      if low ≤ v ∧ v ≤ high then .ok v else Fault.at (.wrongValue (foundWhole v) wanted)
    | _ => n.unexpected wanted
  | _ => n.unexpected wanted

def int64 (n : Node) : Except Fault Int64 :=
  (integer Int64.minValue.toInt Int64.maxValue.toInt "i64" n).map Int64.ofInt

def int32 (n : Node) : Except Fault Int32 :=
  (integer Int32.minValue.toInt Int32.maxValue.toInt "i32" n).map Int32.ofInt

def instant : Node → Except Fault Time.Instant
  | .string (some s) =>
    match Time.Instant.ofText? s with
    | some t => .ok t
    | none => Fault.at .timestamp
  | n => n.unexpected "an RFC 3339 formatted date and time string"

/-- A value that may be null. -/
def nullable {α : Type} (read : Node → Except Fault α) : Node → Except Fault (Option α)
  | .null => .ok none
  | n => (read n).map some

/-! ## Variants -/

/-- The value that a name stands for. -/
def named {α : Type} (names : List (String × α)) (name : String) : Except Fault α :=
  match names.lookup name with
  | some a => .ok a
  | none => Fault.at (.unknownVariant name (names.map Prod.fst))

/-- The content of a variant that has none: null, or an empty object if the node was kept. -/
def noContent (origin : Origin) : Node → Except Fault Unit
  | .null => .ok ()
  | n =>
    match origin, n with
    | .kept, .object [] _ => .ok ()
    | _, _ => n.unexpected "unit"

/-- One of a number of named values: its name, or an object with its name as the only member. -/
def variant {α : Type} (origin : Origin) (names : List (String × α)) (n : Node) : Except Fault α :=
  match origin, n with
  | _, .string (some s) => named names s
  | .kept, .object [(some key, content)] _ => do
    let a ← named names key
    noContent .kept content
    .ok a
  | .kept, .object _ _ => Fault.at (.wrongValue "map" "map with a single key")
  | .kept, n => n.unexpected "string or map"
  | .text, .object ((some key, content) :: rest) closed => do
    let a ← named names key
    within (.member key) (noContent .text content)
    if closed && rest.isEmpty then .ok a else Fault.at .malformed
  | .text, _ => Fault.at .malformed

/-! ## Sequences -/

def items {α : Type} (read : Node → Except Fault α) : Nat → List Node → Except Fault (List α)
  | _, [] => .ok []
  | i, n :: ns => do
    let a ← within (.item i) (read n)
    let as ← items read (i + 1) ns
    .ok (a :: as)

def sequence {α : Type} (read : Node → Except Fault α) : Node → Except Fault (List α)
  | .array ns closed => do
    let as ← items read 0 ns
    if closed then .ok as else Fault.at .malformed
  | n => n.unexpected "a sequence"

/-! ## Records -/

/-- A field of a record: its name, a check of the nodes it takes, and whether it may be missing at
the end of a record written as an array. -/
structure Field where
  name : String
  check : Node → Except Fault Unit
  optional : Bool := false

def checking {α : Type} (read : Node → Except Fault α) (n : Node) : Except Fault Unit :=
  (read n).map fun _ => ()

def Field.of {α : Type} (name : String) (read : Node → Except Fault α) : Field :=
  ⟨name, checking read, false⟩

def Field.defaulted {α : Type} (name : String) (read : Node → Except Fault α) : Field :=
  ⟨name, checking read, true⟩

/-- The fields found so far, latest first. -/
abbrev Found := List (String × Node)

/-- Reads the members of a record in their order. Unknown ones are passed over. -/
def members (fields : List Field) (found : Found) :
    List (Option String × Node) → Except Fault Found
  | [] => .ok found
  | (none, _) :: _ => Fault.at .malformed
  | (some key, n) :: rest =>
    match fields.find? (·.name == key) with
    | none => if n.sound then members fields found rest else Fault.at .malformed
    | some field =>
      if (found.lookup key).isSome then Fault.at (.duplicate key) else do
        within (.member key) (field.check n)
        members fields ((key, n) :: found) rest

def structName (name : String) : String := "struct " ++ name

def elements (n : Nat) : String := toString n ++ if n = 1 then " element" else " elements"

/-- Reads a record written as an array of its fields. -/
def positions (wanted : String) (closed : Bool) (found : Found) :
    Nat → List Field → List Node → Except Fault Found
  | _, [], [] => if closed then .ok found else Fault.at .malformed
  | _, [], _ :: _ => Fault.at .malformed
  | i, field :: fields, n :: ns => do
    within (.item i) (field.check n)
    positions wanted closed ((field.name, n) :: found) (i + 1) fields ns
  | i, field :: fields, [] =>
    if !closed then Fault.at .malformed
    else if field.optional then positions wanted closed found (i + 1) fields []
    else Fault.at (.wrongLength i wanted)

/-- The fields of a record, from an object or an array. -/
def recordFields (name : String) (fields : List Field) : Node → Except Fault Found
  | .object ms closed => do
    let found ← members fields [] ms
    if closed then .ok found else Fault.at .malformed
  | .array ns closed =>
    positions (structName name ++ " with " ++ elements fields.length) closed [] 0 fields ns
  | n => n.unexpected (structName name)

/-- A field that a record has to have. -/
def required {α : Type} (found : Found) (name : String) (read : Node → Except Fault α) :
    Except Fault α :=
  match found.lookup name with
  | some n => read n
  | none => Fault.at (.missing name)

/-- A field that a record may lack. -/
def optional {α : Type} (found : Found) (name : String) (read : Node → Except Fault α) :
    Except Fault (Option α) :=
  match found.lookup name with
  | some n => nullable read n
  | none => .ok none

/-- A field that has a value even where a record lacks it. -/
def orElse {α : Type} (found : Found) (name : String) (fallback : α)
    (read : Node → Except Fault α) : Except Fault α :=
  match found.lookup name with
  | some n => read n
  | none => .ok fallback

/-! ## Whole texts -/

/-- Reads a document; what follows the value is looked at last. -/
def Document.read {α : Type} (read : Node → Except Fault α) (d : Document) : Except Fault α := do
  let a ← read d.root
  if d.complete then .ok a else Fault.at .malformed

end Pipeworks.Json
