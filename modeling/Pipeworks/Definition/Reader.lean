/-
Reading definitions. The whole text is read first, then the name, the image and the jobs are looked
at in this order.
-/
import Pipeworks.Definition.Basic
import Pipeworks.Text.Blank
import Pipeworks.Yaml.Shape

namespace Pipeworks.Definition

open Yaml (Context Fault Node Value)

/-! ## The text -/

/-- A definition as it is written. -/
structure Written where
  name : String
  image : String
  jobs : List (Value × Value)

/-- The members of a definition found so far. -/
structure Members where
  name : Option String := none
  image : Option String := none
  jobs : Option (List (Value × Value)) := none

/-- Takes the members as they come. -/
def takeMembers (c : Context) (depth jumps : Nat) (found : Members) :
    List (Node × Node) → Except Fault Members
  | [] => .ok found
  | (k, v) :: rest => do
    let (key, jumps) ← c.text "field identifier" jumps k
    match key with
    | "name" => do
      let (name, jumps) ← Yaml.once key found.name k (c.text "a string" jumps v)
      takeMembers c depth jumps { found with name := name } rest
    | "image" => do
      let (image, jumps) ← Yaml.once key found.image k (c.text "a string" jumps v)
      takeMembers c depth jumps { found with image := image } rest
    | "jobs" => do
      let (jobs, jumps) ← Yaml.once key found.jobs k (c.entries "a YAML mapping" depth jumps v)
      takeMembers c depth jumps { found with jobs := jobs } rest
    | _ =>
      if v.sound then takeMembers c depth jumps found rest else Fault.at .malformed

def readMembers (c : Context) (depth : Nat) (entries : List (Node × Node)) (closed : Bool) :
    Except Fault Written := do
  let found ← takeMembers c depth 0 {} entries
  let found ← Yaml.closing closed found
  let name ← Yaml.needed "name" found.name
  let image ← Yaml.needed "image" found.image
  .ok ⟨name, image, found.jobs.getD []⟩

def Written.ofText (source : String) : Except Fault Written :=
  (Yaml.Document.ofText source).record "RawDefinition" readMembers

/-! ## Jobs -/

/-- The strings of a list of strings. -/
def strings? : List Value → Option (List String)
  | [] => some []
  | .string s :: vs => (strings? vs).map (s :: ·)
  | _ => none

/-- A step: one command, or a list of commands. -/
def readStep (v : Value) : Except Fault (List String) :=
  if v.holdsTag then Fault.at .tagged else
  let commands := match v with
    | .string s => some [s]
    | .sequence vs => strings? vs
    | _ => none
  match commands with
  | some commands => .ok commands
  | none => Fault.at (.noVariant "RawStep")

/-- The steps of a job; nothing at all stands for an empty list. -/
def readSteps (v : Value) : Except Fault (List (List String)) :=
  match v.untagged with
  | .sequence vs => vs.mapM readStep
  | .null => .ok []
  | v => Fault.at (.wrongType v.found "a sequence")

def readJob (key steps : Value) : Except DefinitionFault Job :=
  match key with
  | .string name =>
    match readSteps steps with
    | .error f => .error (.badSteps name f)
    | .ok steps =>
      if steps.flatten.any Text.isBlankText then .error (.blankCommand name) else .ok ⟨name, steps⟩
  | key => .error (.badJobName key)

/-! ## Definitions -/

/-- An image that is one word and no option. -/
def isImage (image : String) : Bool :=
  match image.toList with
  | '-' :: _ => false
  | cs => !cs.any Text.isBlank

/-- Checks what has been written. -/
def Written.check (w : Written) : Except DefinitionFault Definition :=
  if Text.isBlankText w.name then .error .blankName
  else if Text.isBlankText w.image then .error .blankImage
  else if !isImage w.image then .error (.badImage w.image)
  else do
    let jobs ← w.jobs.mapM fun (key, steps) => readJob key steps
    let d : Definition := ⟨w.name, w.image, jobs⟩
    if d.commands.isEmpty then .error .noCommand else .ok d

/-- The definition that a text holds. -/
def ofText (source : String) : Except DefinitionFault Definition :=
  match Written.ofText source with
  | .ok w => w.check
  | .error f => .error (.yaml f)

end Pipeworks.Definition
