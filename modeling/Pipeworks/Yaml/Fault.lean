/-
What can be wrong with a YAML text that should hold a value of a given shape, where in the value the
fault lies, and its message.
-/
import Pipeworks.Yaml.Value

namespace Pipeworks.Yaml

/-- One step from a value into its parts. -/
inductive Step where
  | member (name : String)
  | item (index : Nat)
  /-- Into the value of a key that is no scalar. -/
  | nameless

inductive Cause where
  /-- The text stops being YAML, holds more than one document or is nested too deep. -/
  | malformed
  | missing (field : String)
  | duplicate (field : String)
  | duplicateKey (key : Value)
  | wrongType (found wanted : String)
  | wrongValue (found wanted : String)
  | noVariant (type : String)
  /-- A tag where a value may take one of several shapes. -/
  | tagged

structure Fault where
  path : List Step
  cause : Cause

def Fault.at {α : Type} (cause : Cause) : Except Fault α := .error ⟨[], cause⟩

/-- Puts the faults of a part where the part is. -/
def within {α : Type} (step : Step) : Except Fault α → Except Fault α
  | .ok a => .ok a
  | .error f => .error { f with path := step :: f.path }

/-! ## Messages -/

def backquoted (s : String) : String := "\x60" ++ s ++ "\x60"

def Cause.message : Cause → String
  | .malformed => "syntax"
  | .missing field => "missing field " ++ backquoted field
  | .duplicate field => "duplicate field " ++ backquoted field
  | .duplicateKey key => "duplicate entry " ++
    match key with
    | .null => "with null key"
    | .bool b => "with key " ++ backquoted (toString b)
    | .number n => "with key " ++ n.text
    | .string s => "with key " ++ Text.quoted s
    | _ => "in YAML map"
  | .wrongType found wanted => "invalid type: " ++ found ++ ", expected " ++ wanted
  | .wrongValue found wanted => "invalid value: " ++ found ++ ", expected " ++ wanted
  | .noVariant type => "data did not match any variant of untagged enum " ++ type
  | .tagged => "untagged and internally tagged enums do not support enum input"

/-- The path from the root. -/
def pathText (before : String) : List Step → String
  | [] => before
  | .item i :: rest => pathText (before ++ "[" ++ toString i ++ "]") rest
  | .member name :: rest => pathText (joined before name) rest
  | .nameless :: rest => pathText (joined before "?") rest
where
  joined (before name : String) : String :=
    if before.isEmpty then name else before ++ "." ++ name

/-- The message, with the path in front unless there is none to tell. -/
def Fault.message (f : Fault) : String :=
  match f.cause, f.path with
  | .malformed, _ => f.cause.message
  | _, [] => f.cause.message
  | _, path => pathText "" path ++ ": " ++ f.cause.message

/-! ## What was found -/

def foundNumber : Number → String
  | .whole n => "integer " ++ backquoted (toString n)
  | .real x => "floating point " ++ backquoted (
    if x.isNaN then "NaN"
    else if x.isInfinite then (if x.isNegative then "-inf" else "inf")
    else Decimal.plain.write x)

/-- A number that only fits into 128 bits. -/
def foundWide (n : Int) : String :=
  "integer " ++ backquoted (toString n) ++ if n < 0 then " as i128" else " as u128"

def foundString (s : String) : String := "string " ++ Text.quoted s

def Scalar.found : Scalar → String
  | .null => "unit value"
  | .bool b => "boolean " ++ backquoted (toString b)
  | .number n => foundNumber n
  | .wide n => foundWide n
  | .string s => foundString s

/-- The description of a value that has no tag. -/
def Value.found : Value → String
  | .null => "unit value"
  | .bool b => "boolean " ++ backquoted (toString b)
  | .number n => foundNumber n
  | .string s => foundString s
  | .sequence _ => "sequence"
  | .mapping _ => "map"
  | .tagged _ v => v.found

end Pipeworks.Yaml
