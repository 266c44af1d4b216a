/-
Stored transcripts: what a run wrote, kept by the id of its pipeline, what can go wrong with them, and
a store in memory.
-/
import Pipeworks.Text.Utf8

namespace Pipeworks.Transcript

inductive Fault where
  | notStored (id : Int64)
  /-- The content is not as long as announced. -/
  | sizeMismatch (expected actual : UInt64)
  /-- The file system refused. -/
  | io
  deriving DecidableEq

def Fault.isNotStored : Fault → Bool
  | .notStored _ => true
  | _ => false

def Fault.message : Fault → String
  | .notStored id => "no log stored for pipeline " ++ toString id.toInt
  | .sizeMismatch expected actual =>
    "size mismatch: expected " ++ toString expected ++ " bytes, got " ++ toString actual
  | .io => "I/O error"

/-- How many bytes there are, counted in sixty-four bits. -/
def byteCount (content : Bytes) : UInt64 := UInt64.ofNat content.length

/-- The transcripts by pipeline, each pipeline once. -/
structure MemoryStore where
  contents : List (Int64 × Bytes) := []

namespace MemoryStore

/-- Stores a transcript in the place of an earlier one, if its length is the announced one. -/
def upload (id : Int64) (content : Bytes) (size : UInt64) (s : MemoryStore) :
    Except Fault MemoryStore :=
  if byteCount content = size then
    .ok ⟨(id, content) :: s.contents.filter fun (other, _) => other != id⟩
  else .error (.sizeMismatch size (byteCount content))

def download (id : Int64) (s : MemoryStore) : Except Fault Bytes :=
  match s.contents.lookup id with
  | some content => .ok content
  | none => .error (.notStored id)

end MemoryStore

end Pipeworks.Transcript
