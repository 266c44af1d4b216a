/-
Programs of the host that are started with arguments and settings, and how they end.
-/
import Pipeworks.Program
import Pipeworks.Text.Blank
import Pipeworks.Text.Utf8

namespace Pipeworks.Tool

/-- One start of a program: its arguments, and the environment variables that are set for it. -/
structure Invocation where
  arguments : List String
  environment : List (String × String) := []
  deriving DecidableEq

/-- How a program ended. -/
structure Ending where
  /-- The exit code; none if it was killed. -/
  code : Option Int32
  output : Bytes
  complaint : Bytes

namespace Ending

def succeeded (e : Ending) : Bool := e.code == some 0

/-- The exit code, or the one that stands for a killed program. -/
def exitCode (e : Ending) : Int32 := e.code.getD (-1)

def outputText (e : Ending) : String := Text.ofBytesLossy e.output

/-- What the program complained of, without blanks at the ends. -/
def complaintText (e : Ending) : String := Text.trimmed (Text.ofBytesLossy e.complaint)

end Ending

/-- Why a program did not start. -/
inductive LaunchFault where
  | notFound
  /-- An argument or setting holds a NUL, which would end it early. -/
  | nulByte
  deriving DecidableEq

def LaunchFault.message : LaunchFault → String
  | .notFound => "No such file or directory (os error 2)"
  | .nulByte => "nul byte found in provided data"

def hasNul (s : String) : Bool := s.toList.any (· == '\x00')

/-- Whether the host can be handed the arguments and settings at all. -/
def Invocation.representable (i : Invocation) : Bool :=
  i.arguments.all (!hasNul ·) && i.environment.all fun (_, value) => !hasNul value

/-- A program of the host: what becomes of each start. -/
abbrev Answer (_ : Invocation) : Type := Except LaunchFault Ending

/-- Work that is done by starting programs. -/
abbrev Session (α : Type) : Type := Program Invocation Answer α

end Pipeworks.Tool
