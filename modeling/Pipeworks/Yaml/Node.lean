/-
The nodes of a YAML document, up to the place where the text stops being YAML. What comes before that
place can be looked at as if the rest were well-formed.
-/
import Pipeworks.Yaml.Token

namespace Pipeworks.Yaml

/-- The name of a tag in full. -/
abbrev Tag := Bytes

inductive Node where
  | scalar (text : List Char) (plain : Bool) (tag : Option Tag)
  | sequence (items : List Node) (tag : Option Tag) (closed : Bool)
  | mapping (entries : List (Node × Node)) (tag : Option Tag) (closed : Bool)
  /-- The node with the given anchor. -/
  | alias (id : Nat)
  | anchored (id : Nat) (node : Node)
  /-- The place where the text stops being YAML. -/
  | broken

namespace Node

/-- The node of an empty place. -/
def empty : Node := .scalar [] true none

mutual

/-- The number of nodes and of ends of collections. -/
def size : Node → Nat
  | .scalar _ _ _ => 1
  | .sequence items _ closed => 1 + sizeItems items + if closed then 1 else 0
  | .mapping entries _ closed => 1 + sizeEntries entries + if closed then 1 else 0
  | .alias _ => 1
  | .anchored _ n => n.size
  | .broken => 0

def sizeItems : List Node → Nat
  | [] => 0
  | n :: ns => n.size + sizeItems ns

def sizeEntries : List (Node × Node) → Nat
  | [] => 0
  | (k, v) :: es => k.size + v.size + sizeEntries es

end

mutual

/-- The anchored nodes in the order of the text. -/
def anchors : Node → List (Nat × Node)
  | .sequence items _ _ => anchorsOfItems items
  | .mapping entries _ _ => anchorsOfEntries entries
  | .anchored id n => (id, n) :: n.anchors
  | _ => []

def anchorsOfItems : List Node → List (Nat × Node)
  | [] => []
  | n :: ns => n.anchors ++ anchorsOfItems ns

def anchorsOfEntries : List (Node × Node) → List (Nat × Node)
  | [] => []
  | (k, v) :: es => k.anchors ++ v.anchors ++ anchorsOfEntries es

end

end Node

/-! ## Nodes of tokens -/

/-- What is left to read, what the handles of tags stand for, and the anchors so far. -/
structure Rest where
  tokens : List Token
  handles : List (List Char × Bytes)
  names : List (List Char × Nat) := []

/-- A node, and what follows it unless the text stops being YAML. -/
abbrev Reading := Node × Option Rest

def stopped : Reading := (.broken, none)

namespace Rest

def after (r : Rest) (ts : List Token) : Rest := { r with tokens := ts }

/-- Gives an anchor the number of names known so far; a name that is known keeps no other number. -/
def register (r : Rest) (name : List Char) : Nat × Rest :=
  let id := r.names.length
  (id, { r with names := (name, id) :: r.names.filter (·.1 != name) })

/-- The tag of a word; none if its handle stands for nothing. -/
def tag? (r : Rest) (w : TagWord) : Option Tag :=
  if w.handle.isEmpty then some w.name
  else (r.handles.lookup w.handle).map (· ++ w.name)

end Rest

/-- An anchor and a tag in either order, and the tokens behind them. -/
def properties : List Token → Option (List Char) × Option TagWord × List Token
  | .anchor a :: .tag w :: ts => (some a, some w, ts)
  | .anchor a :: ts => (some a, none, ts)
  | .tag w :: .anchor a :: ts => (some a, some w, ts)
  | .tag w :: ts => (none, some w, ts)
  | ts => (none, none, ts)

/-- The tag that only says that there is none. -/
def noTag : Tag := Utf8.encode ['!']

/-- How the items of a sequence are set apart. -/
inductive Style where
  | block
  | indentless
  | flow

/-- A place that is empty if one of the tokens `stops` comes next. -/
def emptyOr (stops : List Token) (read : Rest → Reading) (r : Rest) : Reading :=
  match r.tokens with
  | [] => stopped
  | t :: _ => if stops.contains t then (.empty, some r) else read r

/-- The value behind a key: empty without a value mark. -/
def valueOr (stops : List Token) (read : Rest → Reading) (r : Rest) : Reading :=
  match r.tokens with
  | [] => stopped
  | .value :: ts => emptyOr stops read (r.after ts)
  | _ => (.empty, some r)

def blockStops : List Token := [.key, .value, .blockEnd]

/-- Passes the comma before a part, which only the first one lacks; none if it is missing. -/
def passComma (first : Bool) (closing : Token) (r : Rest) : Option Rest :=
  match r.tokens with
  | .flowEntry :: ts => if first then some r else some (r.after ts)
  | t :: _ => if first || t == closing then some r else none
  | [] => none

mutual

/-- A node with its properties. -/
def readNode : Nat → Bool → Bool → Rest → Reading
  | 0, _, _, _ => stopped
  | fuel + 1, inBlock, indentless, r =>
    match r.tokens with
    | .alias name :: ts =>
      match r.names.lookup name with
      | some id => (.alias id, some (r.after ts))
      | none => stopped
    | tokens =>
      let (anchor, word, ts) := properties tokens
      let tag := word.map r.tag?
      if ts.isEmpty || tag == some none then stopped else
      let tag := tag.join
      let bare := anchor.isNone && tag.isNone
      let finish (r : Rest) (read : Rest → Reading) : Reading :=
        match anchor with
        | none => read r
        | some name =>
          let (id, r) := r.register name
          let (n, rest) := read r
          (.anchored id n, rest)
      let sequence (style : Style) (ts : List Token) : Reading :=
        finish (r.after ts) fun r =>
          let (items, rest) := readItems fuel style [] r
          (.sequence items tag rest.isSome, rest)
      let mapping (style : Style) (ts : List Token) : Reading :=
        finish (r.after ts) fun r =>
          let (entries, rest) := readEntries fuel style [] r
          (.mapping entries tag rest.isSome, rest)
      match ts with
      | .blockEntry :: _ =>
        if indentless then sequence .indentless ts
        else if bare then stopped
        else finish (r.after ts) fun r => (.scalar [] true tag, some r)
      | .scalar text plain :: ts =>
        let tag := if tag == some noTag then none else tag
        finish (r.after ts) fun r => (.scalar text plain tag, some r)
      | .flowSequence :: ts => sequence .flow ts
      | .flowMapping :: ts => mapping .flow ts
      | t :: rest =>
        if inBlock && t == .blockSequence then sequence .block rest
        else if inBlock && t == .blockMapping then mapping .block rest
        else if bare then stopped
        else finish (r.after ts) fun r => (.scalar [] true tag, some r)
      | [] => stopped

/-- The items of a sequence; `acc` holds the earlier ones, last first. -/
def readItems : Nat → Style → List Node → Rest → List Node × Option Rest
  | 0, _, acc, _ => (acc.reverse, none)
  | fuel + 1, style, acc, r =>
    let next (read : Reading) : List Node × Option Rest :=
      match read with
      | (n, some r) => readItems fuel style (n :: acc) r
      | (n, none) => ((n :: acc).reverse, none)
    match style, r.tokens with
    | .block, .blockEntry :: ts =>
      next (emptyOr [.blockEntry, .blockEnd] (readNode fuel true false) (r.after ts))
    | .block, .blockEnd :: ts => (acc.reverse, some (r.after ts))
    | .block, _ => (acc.reverse, none)
    | .indentless, .blockEntry :: ts =>
      next (emptyOr (.blockEntry :: blockStops) (readNode fuel true false) (r.after ts))
    | .indentless, [] => (acc.reverse, none)
    | .indentless, _ => (acc.reverse, some r)
    | .flow, _ =>
      match passComma acc.isEmpty .flowSequenceEnd r with
      | none => (acc.reverse, none)
      | some r =>
        match r.tokens with
        | .flowSequenceEnd :: ts => (acc.reverse, some (r.after ts))
        | .key :: ts => next (readPair fuel (r.after ts))
        | _ => next (readNode fuel false false r)

/-- A mapping of one entry inside a flow sequence. An empty key takes the token behind it along. -/
def readPair : Nat → Rest → Reading
  | 0, _ => stopped
  | fuel + 1, r =>
    let stops := [.value, .flowEntry, .flowSequenceEnd]
    let (k, rest) := match r.tokens with
      | [] => stopped
      | t :: ts =>
        if stops.contains t then (.empty, some (r.after ts)) else readNode fuel false false r
    match rest with
    | none => (.mapping [(k, .broken)] none false, none)
    | some r =>
      let (v, rest) := valueOr [.flowEntry, .flowSequenceEnd] (readNode fuel false false) r
      (.mapping [(k, v)] none rest.isSome, rest)

/-- The entries of a mapping; `acc` holds the earlier ones, last first. -/
def readEntries : Nat → Style → List (Node × Node) → Rest → List (Node × Node) × Option Rest
  | 0, _, acc, _ => (acc.reverse, none)
  | fuel + 1, style, acc, r =>
    let next (key : Reading) (value : Rest → Reading) : List (Node × Node) × Option Rest :=
      match key with
      | (.broken, none) => (acc.reverse, none)
      | (k, none) => (((k, .broken) :: acc).reverse, none)
      | (k, some r) =>
        match value r with
        | (v, some r) => readEntries fuel style ((k, v) :: acc) r
        | (v, none) => (((k, v) :: acc).reverse, none)
    match style with
    | .flow =>
      match passComma acc.isEmpty .flowMappingEnd r with
      | none => (acc.reverse, none)
      | some r =>
        let value := valueOr [.flowEntry, .flowMappingEnd] (readNode fuel false false)
        match r.tokens with
        | .flowMappingEnd :: ts => (acc.reverse, some (r.after ts))
        | .key :: ts =>
          next (emptyOr [.value, .flowEntry, .flowMappingEnd] (readNode fuel false false)
            (r.after ts)) value
        | _ => next (readNode fuel false false r) (emptyOr [] fun r => (.empty, some r))
    | _ =>
      match r.tokens with
      | .key :: ts =>
        let read := readNode fuel true true
        next (emptyOr blockStops read (r.after ts)) (valueOr blockStops read)
      | .blockEnd :: ts => (acc.reverse, some (r.after ts))
      | _ => (acc.reverse, none)

end

end Pipeworks.Yaml
