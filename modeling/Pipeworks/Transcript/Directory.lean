/-
Transcripts as files of a directory. A transcript is written to a file of its own first and takes its
place only when it is complete.
-/
import Pipeworks.Text.Digits
import Pipeworks.Transcript.Memory

namespace Pipeworks.Transcript

/-- The name of a file: that of a pipeline's transcript, or of one that is being written. -/
inductive FileName where
  | log (id : Int64)
  | unfinished (id : Int64) (number : Nat)
  deriving DecidableEq

/-- The name as the directory has it. The number of an unfinished file stands for an identifier of its own. -/
def FileName.text : FileName → String
  | .log id => toString id.toInt ++ ".log"
  | .unfinished id number =>
    "." ++ toString id.toInt ++ "." ++ String.ofList ((Hex.ofNat number).leftpad 32 '0') ++ ".partial"

inductive Entry where
  | file (content : Bytes)
  | directory
  deriving DecidableEq

/-- The directory of the store. -/
inductive Root where
  /-- It does not exist yet. -/
  | missing
  /-- It cannot exist: what should hold it is no directory. -/
  | impossible
  | present (entries : List (FileName × Entry))
  deriving DecidableEq

/-- A store and the number of the next unfinished file. -/
structure DirectoryStore where
  root : Root
  next : Nat := 0

namespace Root

def entries : Root → List (FileName × Entry)
  | .present entries => entries
  | _ => []

def entry? (r : Root) (name : FileName) : Option Entry := r.entries.lookup name

end Root

/-- The entries without the one of the given name. -/
def without (name : FileName) (entries : List (FileName × Entry)) : List (FileName × Entry) :=
  entries.filter fun (other, _) => other != name

/-- The entries with the given one in its place. -/
def put (name : FileName) (entry : Entry) (entries : List (FileName × Entry)) :
    List (FileName × Entry) :=
  (name, entry) :: without name entries

/-- Moves an entry onto a name; none if a directory has that name. -/
def rename (old new : FileName) (entries : List (FileName × Entry)) :
    Option (List (FileName × Entry)) :=
  match entries.lookup old, entries.lookup new with
  | _, some .directory => none
  | some entry, _ => some (put new entry (without old entries))
  | none, _ => none

namespace DirectoryStore

/-- A store whose directory is new: it is empty, or has still to be made. -/
def new (made : Bool) (next : Nat) : DirectoryStore := ⟨if made then .present [] else .missing, next⟩

/-- What is in the directory, by name. -/
def files (s : DirectoryStore) : List (String × Entry) :=
  s.root.entries.map fun (name, entry) => (name.text, entry)

/-- The store once its root exists; none if it cannot. -/
def withRoot (s : DirectoryStore) : Option (List (FileName × Entry)) :=
  match s.root with
  | .missing => some []
  | .impossible => none
  | .present entries => some entries

/-- Stores a transcript in the place of an earlier one. One byte more than announced is written at
most, which is enough to see that there are more; of the greatest size there is no successor, and then
nothing is written. -/
def upload (id : Int64) (content : Bytes) (size : UInt64) (s : DirectoryStore) :
    Except Fault Unit × DirectoryStore :=
  match s.withRoot with
  | none => (.error .io, s)
  | some entries =>
    let name := FileName.unfinished id s.next
    let written := content.take (size + 1).toNat
    let during := put name (.file written) entries
    if byteCount written = size then
      match rename name (.log id) during with
      | some entries => (.ok (), ⟨.present entries, s.next + 1⟩)
      | none => (.error .io, ⟨.present during, s.next + 1⟩)
    else
      (.error (.sizeMismatch size (byteCount written)), ⟨.present (without name during), s.next + 1⟩)

/-- Opens a transcript. What is opened may turn out to be a directory, which cannot be read. -/
def download (id : Int64) (s : DirectoryStore) : Except Fault Entry :=
  match s.root with
  | .impossible => .error .io
  | root =>
    match root.entry? (.log id) with
    | some entry => .ok entry
    | none => .error (.notStored id)

/-- Makes a directory in the place of a transcript. -/
def obstruct (id : Int64) (s : DirectoryStore) : DirectoryStore :=
  match s.withRoot with
  | none => s
  | some entries => { s with root := .present (put (.log id) .directory entries) }

end DirectoryStore

end Pipeworks.Transcript
