/-
What can be wrong with a JSON text that should hold a value of a given shape, where in the value the
fault lies, and its message.
-/
import Pipeworks.Json.Node
import Pipeworks.Decimal.Layout
import Pipeworks.Text.Quoted

namespace Pipeworks.Json

/-- One step from a value into its parts. -/
inductive Step where
  | member (name : String)
  | item (index : Nat)
  deriving DecidableEq

inductive Cause where
  /-- The text stops being JSON, or holds something that is no value of any shape. -/
  | malformed
  | timestamp
  | missing (field : String)
  | duplicate (field : String)
  | wrongType (found wanted : String)
  | wrongValue (found wanted : String)
  | wrongLength (length : Nat) (wanted : String)
  | unknownVariant (name : String) (known : List String)
  deriving DecidableEq

structure Fault where
  path : List Step
  cause : Cause
  deriving DecidableEq

def Fault.at {α : Type} (cause : Cause) : Except Fault α := .error ⟨[], cause⟩

/-- Puts the faults of a part where the part is. -/
def within {α : Type} (step : Step) : Except Fault α → Except Fault α
  | .ok a => .ok a
  | .error f => .error { f with path := step :: f.path }

/-! ## Messages -/

def backquoted (s : String) : String := "\x60" ++ s ++ "\x60"

/-- The known variants, as a choice. -/
def choice : List String → String
  | [] => "there are no variants"
  | [a] => "expected " ++ backquoted a
  | [a, b] => "expected " ++ backquoted a ++ " or " ++ backquoted b
  | names => "expected one of " ++ ", ".intercalate (names.map backquoted)

def Cause.message : Cause → String
  | .malformed => "syntax"
  | .timestamp => "invalid timestamp"
  | .missing field => "missing field " ++ backquoted field
  | .duplicate field => "duplicate field " ++ backquoted field
  | .wrongType found wanted => "invalid type: " ++ found ++ ", expected " ++ wanted
  | .wrongValue found wanted => "invalid value: " ++ found ++ ", expected " ++ wanted
  | .wrongLength n wanted => "invalid length " ++ toString n ++ ", expected " ++ wanted
  | .unknownVariant name known => "unknown variant " ++ backquoted name ++ ", " ++ choice known

def Fault.message (f : Fault) : String := f.cause.message

/-- The path from the root, with a dot before every member but a first one. -/
def pathText : List Step → String
  | [] => ""
  | .member name :: rest => name ++ tail rest
  | .item i :: rest => "[" ++ toString i ++ "]" ++ tail rest
where
  tail : List Step → String
    | [] => ""
    | .member name :: rest => "." ++ name ++ tail rest
    | .item i :: rest => "[" ++ toString i ++ "]" ++ tail rest

/-- The message with the path in front, if the fault is not at the root. -/
def Fault.located (f : Fault) : String :=
  if f.path.isEmpty then f.message else pathText f.path ++ ": " ++ f.message

/-! ## What was found -/

def foundWhole (n : Int) : String := "integer " ++ backquoted (toString n)

def foundReal (x : Binary64) : String :=
  "floating point " ++ backquoted (Decimal.signedExponent.write x)

/-- The description of a node in a message; none if the text stops making sense in it. -/
def Node.found? : Node → Option String
  | .null => some "null"
  | .bool b => some ("boolean " ++ backquoted (toString b))
  | .number n => n.quantity?.map fun
    | .whole v => foundWhole v
    | .real x => foundReal x
  | .string s => s.map fun t => "string " ++ Text.quoted t
  | .array _ _ => some "sequence"
  | .object _ _ => some "map"
  | .broken => none

/-- The fault of a node that is not of the wanted kind. -/
def Node.unexpected {α : Type} (n : Node) (wanted : String) : Except Fault α :=
  match n.found? with
  | some found => Fault.at (.wrongType found wanted)
  | none => Fault.at .malformed

end Pipeworks.Json
