/-
Reading values of a given shape off a document. Aliases are followed, but only so often; nesting is
limited.
-/
import Pipeworks.Yaml.Document
import Pipeworks.Yaml.Fault

namespace Pipeworks.Yaml

/-- The anchors of a document, and how many aliases may be followed. -/
structure Context where
  anchors : List (Nat × Node)
  maxJumps : Nat

def Document.context (d : Document) : Context := ⟨d.anchored?, d.size * 100⟩

/-- How deep collections may be nested. -/
def maxDepth : Nat := 128

/-- A node without its anchor. -/
def Node.bare : Node → Node
  | .anchored _ n => n
  | n => n

/-- The node itself, or the one that its alias stands for, and the number of aliases followed. -/
def Context.follow (c : Context) (jumps : Nat) (n : Node) : Except Fault (Node × Nat) :=
  match n.bare with
  | .alias id =>
    if c.maxJumps < jumps + 1 then Fault.at .malformed
    else match c.anchors.lookup id with
      | some target => .ok (target.bare, jumps + 1)
      | none => Fault.at .malformed
  | n => .ok (n, jumps)

mutual

/-- Whether the node is complete. -/
def Node.sound : Node → Bool
  | .sequence items _ closed => closed && soundItems items
  | .mapping entries _ closed => closed && soundEntries entries
  | .anchored _ n => n.sound
  | .broken => false
  | _ => true

def soundItems : List Node → Bool
  | [] => true
  | n :: ns => n.sound && soundItems ns

def soundEntries : List (Node × Node) → Bool
  | [] => true
  | (k, v) :: es => k.sound && v.sound && soundEntries es

end

/-- The way to the value of a key. -/
def stepTo (key : Node) : Step :=
  match key.bare with
  | .scalar text _ _ => .member (String.ofList text)
  | _ => .nameless

/-! ## Scalars -/

/-- The tags with a meaning of their own. -/
def coreTag (name : String) : Tag := Utf8.encode ("tag:yaml.org,2002:" ++ name).toList

/-- A scalar that has to be what its tag says. -/
def enforced (wanted : String) (s : String) : Option Scalar → Except Fault Scalar
  | some v => .ok v
  | none => Fault.at (.wrongValue (foundString s) wanted)

/-- What a scalar stands for. A tag with a meaning is enforced, other tags make it a string; a tag of
the document's own leaves a plain scalar as it is. -/
def scalarOf (text : List Char) (plain : Bool) (tag : Option Tag) : Except Fault Scalar :=
  let s := String.ofList text
  match tag with
  | none => .ok (if plain then Scalar.ofPlain text else .string s)
  | some tag =>
    if tag = coreTag "bool" then enforced "a boolean" s ((bool? s).map .bool)
    else if tag = coreTag "int" then enforced "an integer" s (whole? text)
    else if tag = coreTag "float" then
      enforced "a float" s ((real? text).map fun x => .number (.real x))
    else if tag = coreTag "null" then
      enforced "null" s (if isNullWord s then some .null else none)
    else .ok (if plain && tag.head? == some 33 then Scalar.ofPlain text else .string s)

/-- The fault of a node that is not of the wanted kind. -/
def Node.unexpected {α : Type} (n : Node) (wanted : String) : Except Fault α :=
  match n with
  | .scalar text plain tag =>
    match scalarOf text plain tag with
    | .ok s => Fault.at (.wrongType s.found wanted)
    | .error f => .error f
  | .sequence _ _ _ => Fault.at (.wrongType "sequence" wanted)
  | .mapping _ _ _ => Fault.at (.wrongType "map" wanted)
  | _ => Fault.at .malformed

/-- The text of any scalar. -/
def Context.text (c : Context) (wanted : String) (jumps : Nat) (n : Node) :
    Except Fault (String × Nat) := do
  let (n, jumps) ← c.follow jumps n
  match n with
  | .scalar text _ _ => .ok (String.ofList text, jumps)
  | n => n.unexpected wanted

/-! ## Values -/

/-- Reads items one after the other. -/
def readAll {α : Type} (read : Nat → Node → Except Fault (α × Nat)) (i jumps : Nat) :
    List Node → Except Fault (List α × Nat)
  | [] => .ok ([], jumps)
  | n :: ns => do
    let (a, jumps) ← within (.item i) (read jumps n)
    let (as, jumps) ← readAll read (i + 1) jumps ns
    .ok (a :: as, jumps)

/-- Reads entries one after the other; no key may come twice. `found` holds the earlier ones, last
first. -/
def readFresh (read : Nat → Node → Except Fault (Value × Nat)) (jumps : Nat)
    (found : List (Value × Value)) : List (Node × Node) → Except Fault (List (Value × Value) × Nat)
  | [] => .ok (found.reverse, jumps)
  | (k, v) :: es => do
    let (key, jumps) ← read jumps k
    if found.any fun (other, _) => key.same other then Fault.at (.duplicateKey key) else
    let (value, jumps) ← within (stepTo k) (read jumps v)
    readFresh read jumps ((key, value) :: found) es

/-- A collection that has to be closed once its parts have been read. -/
def closing {α : Type} (closed : Bool) (a : α) : Except Fault α :=
  if closed then .ok a else Fault.at .malformed

def Scalar.value : Scalar → Except Fault Value
  | .null => .ok .null
  | .bool b => .ok (.bool b)
  | .number n => .ok (.number n)
  | .wide n => Fault.at (.wrongType (foundWide n) "any YAML value")
  | .string s => .ok (.string s)

/-- The name of a tag of the document's own. -/
def ownTag? : Option Tag → Option String
  | some (33 :: name) => Text.ofBytes? name
  | _ => none

def Node.tag? : Node → Option Tag
  | .scalar _ _ tag => tag
  | .sequence _ tag _ => tag
  | .mapping _ tag _ => tag
  | _ => none

/-- The value of a node, nested at most `depth` deep. -/
def Context.value (c : Context) (depth jumps : Nat) (n : Node) : Except Fault (Value × Nat) := do
  let (n, jumps) ← c.follow jumps n
  let own := ownTag? n.tag?
  if own = some "" then Fault.at .malformed else
  let (content, jumps) ← match n with
    | .scalar text plain tag => do
      let s ← scalarOf text plain (if own.isSome then none else tag)
      let v ← s.value
      .ok (v, jumps)
    | .sequence items _ closed =>
      match depth with
      | 0 => Fault.at .malformed
      | depth + 1 => do
        let (vs, jumps) ← readAll (c.value depth) 0 jumps items
        closing closed (Value.sequence vs, jumps)
    | .mapping entries _ closed =>
      match depth with
      | 0 => Fault.at .malformed
      | depth + 1 => do
        let (es, jumps) ← readFresh (c.value depth) jumps [] entries
        closing closed (Value.mapping es, jumps)
    | _ => Fault.at .malformed
  .ok (match own with
    | some tag => .tagged tag content
    | none => content, jumps)

/-- Whether a place for a mapping has been left empty. -/
def Node.isEmptyPlace : Node → Bool
  | .scalar [] true _ => true
  | _ => false

/-- The entries of a mapping of values. An empty place is an empty mapping. -/
def Context.entries (c : Context) (wanted : String) (depth jumps : Nat) (n : Node) :
    Except Fault (List (Value × Value) × Nat) := do
  let (n, jumps) ← c.follow jumps n
  match n with
  | .mapping entries _ closed =>
    match depth with
    | 0 => Fault.at .malformed
    | depth + 1 => do
      let (es, jumps) ← readFresh (c.value depth) jumps [] entries
      closing closed (es, jumps)
  | n => if n.isEmptyPlace then .ok ([], jumps) else n.unexpected wanted

/-! ## Records -/

/-- A member of a record that may come once: its new value, from a node. -/
def once {α : Type} (name : String) (old : Option α) (key : Node)
    (read : Except Fault (α × Nat)) : Except Fault (Option α × Nat) :=
  if old.isSome then Fault.at (.duplicate name) else do
    let (a, jumps) ← within (stepTo key) read
    .ok (some a, jumps)

/-- A member that has to be there. -/
def needed {α : Type} (name : String) : Option α → Except Fault α
  | some a => .ok a
  | none => Fault.at (.missing name)

/-- Reads the whole document as a record, whose entries `read` takes. -/
def Document.record {α : Type} (d : Document) (name : String)
    (read : Context → Nat → List (Node × Node) → Bool → Except Fault α) : Except Fault α := do
  let a ← match d.root with
    | none => read d.context (maxDepth - 1) [] true
    | some root =>
      match root.bare with
      | .mapping entries _ closed => read d.context (maxDepth - 1) entries closed
      | n =>
        if n.isEmptyPlace then read d.context (maxDepth - 1) [] true
        else n.unexpected ("struct " ++ name)
  closing d.complete a

end Pipeworks.Yaml
