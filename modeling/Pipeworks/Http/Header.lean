/-
The headers of a request: names without regard to case, of which the first one counts.
-/
import Pipeworks.Text.Utf8

namespace Pipeworks.Http

/-- Names and values in the order in which they were sent. -/
abbrev Headers := List (Bytes × Bytes)

/-- A letter in lower case. -/
def lowerByte (b : UInt8) : UInt8 := if 65 ≤ b && b ≤ 90 then b + 32 else b

/-- Whether a header has the given name, which is in lower case. -/
def hasName (name : String) (header : Bytes × Bytes) : Bool :=
  header.1.map lowerByte == Text.bytes name

/-- A visible character of ASCII, or a tab. -/
def isVisible (b : UInt8) : Bool := b == 9 || (32 ≤ b && b < 127)

namespace Headers

/-- The value of the first header with the name. -/
def first? (name : String) (headers : Headers) : Option Bytes :=
  (headers.find? (hasName name)).map Prod.snd

/-- The value as text, if all of it is visible. -/
def text? (name : String) (headers : Headers) : Option String :=
  match headers.first? name with
  | some value => if value.all isVisible then Text.ofBytes? value else none
  | none => none

end Headers

end Pipeworks.Http
