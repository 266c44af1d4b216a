/-
Tags and directives as they are written: handles, the characters of a tag's name with its escaped
bytes, and the lines that start with a percent sign.
-/
import Pipeworks.Text.Digits
import Pipeworks.Yaml.Cursor

namespace Pipeworks.Yaml

/-- A tag: the handle in front and the name behind it. -/
structure TagWord where
  handle : List Char
  name : Bytes
  deriving DecidableEq

/-- A line that says how to read the document. -/
inductive Directive where
  | version (major minor : Nat)
  /-- What a handle stands for. -/
  | handle (handle : List Char) (start : Bytes)
  deriving DecidableEq

def isTagChar (verbatim : Bool) (c : Char) : Bool :=
  isNameChar c || ";/?:@&=+$.!~*'()".toList.contains c || (verbatim && ",[]".toList.contains c)

/-! ## Escaped bytes -/

/-- The byte of a percent sign and two digits. -/
def escapedByte (c : Cursor) : Option (UInt8 × Cursor) :=
  match c.ahead with
  | '%' :: a :: b :: _ =>
    match Hex.digit? a, Hex.digit? b with
    | some x, some y => some ((x * 16 + y).toUInt8, c.skip 3)
    | _, _ => none
  | _ => none

/-- How many bytes follow the first one of a character. -/
def followers? (b : UInt8) : Option Nat :=
  let n := b.toNat
  if n < 0x80 then some 0
  else if 0xC0 ≤ n && n < 0xE0 then some 1
  else if 0xE0 ≤ n && n < 0xF0 then some 2
  else if 0xF0 ≤ n && n < 0xF8 then some 3
  else none

def moreBytes : Nat → Cursor → Option (Bytes × Cursor)
  | 0, c => some ([], c)
  | n + 1, c => do
    let (b, c) ← escapedByte c
    if b.toNat / 0x40 ≠ 2 then none else
    let (bs, c) ← moreBytes n c
    some (b :: bs, c)

/-- The bytes of one escaped character. -/
def escapedChar (c : Cursor) : Option (Bytes × Cursor) := do
  let (b, c) ← escapedByte c
  let n ← followers? b
  let (bs, c) ← moreBytes n c
  some (b :: bs, c)

/-! ## Words -/

/-- The name of a tag, as far as it goes; `acc` holds its bytes, last first. -/
def readTagName (verbatim : Bool) : Nat → Bytes → Cursor → Option (Bytes × Cursor)
  | 0, acc, c => some (acc.reverse, c)
  | fuel + 1, acc, c =>
    match c.ahead with
    | '%' :: _ =>
      match escapedChar c with
      | some (bs, c) => readTagName verbatim fuel (bs.reverse ++ acc) c
      | none => none
    | ch :: _ =>
      if isTagChar verbatim ch then
        readTagName verbatim fuel ((Utf8.encodeChar ch).reverse ++ acc) (c.skip 1)
      else some (acc.reverse, c)
    | [] => some (acc.reverse, c)

/-- A name that is not empty. -/
def tagName (verbatim : Bool) (c : Cursor) : Option (Bytes × Cursor) :=
  match readTagName verbatim (c.left + 1) [] c with
  | some (name, after) => if name.isEmpty then none else some (name, after)
  | none => none

/-- A handle: an exclamation mark, and a name with another one behind it if there is one. -/
def tagHandle (c : Cursor) : Option (List Char × Cursor) :=
  match c.ahead with
  | '!' :: _ =>
    let (name, c) := (c.skip 1).run isNameChar
    match c.ahead with
    | '!' :: _ => some ('!' :: name ++ ['!'], c.skip 1)
    | _ => some ('!' :: name, c)
  | _ => none

/-- Whether a handle is closed by a second exclamation mark. -/
def isNamedHandle (handle : List Char) : Bool :=
  2 ≤ handle.length && handle.getLast? == some '!'

def readTag (c : Cursor) : Option (TagWord × Cursor) :=
  match c.ahead with
  | '!' :: '<' :: _ => do
    let (name, c) ← tagName true (c.skip 2)
    match c.ahead with
    | '>' :: _ => some (⟨[], name⟩, c.skip 1)
    | _ => none
  | _ => do
    let (handle, c) ← tagHandle c
    if isNamedHandle handle then
      let (name, c) ← tagName false c
      some (⟨handle, name⟩, c)
    else
      let start := Utf8.encode (handle.drop 1)
      let (rest, c) ← readTagName false (c.left + 1) [] c
      let name := start ++ rest
      some (if name.isEmpty then ⟨[], Utf8.encode ['!']⟩ else ⟨['!'], name⟩, c)

/-- The tag ahead, which a gap has to follow, or a comma in a flow collection. -/
def tagWord (inFlow : Bool) (c : Cursor) : Option (TagWord × Cursor) := do
  let (word, c) ← readTag c
  let ended := atGap c.ahead || (inFlow && match c.ahead with | ',' :: _ => true | _ => false)
  if ended then some (word, c) else none

/-- The name of an anchor or alias, behind its indicator. -/
def anchorName (c : Cursor) : Option (List Char × Cursor) :=
  let (name, c) := (c.skip 1).run isNameChar
  let ended := atGap c.ahead || match c.ahead with
    | ch :: _ => "?:,]\x7d%@\x60".toList.contains ch
    | [] => true
  if !name.isEmpty && ended then some (name, c) else none

/-! ## Directives -/

def natOf (ds : List Char) : Nat := ds.foldl (fun n c => n * 10 + (c.toNat - 48)) 0

/-- A number of one to nine digits. -/
def versionNumber (c : Cursor) : Option (Nat × Cursor) :=
  let (ds, c) := c.run Char.isDigit
  if ds.isEmpty || 9 < ds.length then none else some (natOf ds, c)

def skipBlanks (c : Cursor) : Cursor := (c.run isBlank).2

/-- The value of a directive, behind its name. -/
def directiveValue (name : List Char) (c : Cursor) : Option (Directive × Cursor) :=
  if name = "YAML".toList then do
    let (major, c) ← versionNumber (skipBlanks c)
    match c.ahead with
    | '.' :: _ => do
      let (minor, c) ← versionNumber (c.skip 1)
      some (.version major minor, c)
    | _ => none
  else if name = "TAG".toList then do
    let (handle, c) ← tagHandle (skipBlanks c)
    if handle ≠ ['!'] ∧ !isNamedHandle handle then none else
    match c.ahead with
    | ch :: _ =>
      if !isBlank ch then none else do
      let (start, c) ← tagName true (skipBlanks c)
      if atGap c.ahead then some (.handle handle start, c) else none
    | [] => none
  else none

/-- The directive whose percent sign is ahead, with its line. -/
def directiveLine (c : Cursor) : Option (Directive × Cursor) := do
  let (name, c) := (c.skip 1).run isNameChar
  if name.isEmpty || !atGap c.ahead then none else
  let (directive, c) ← directiveValue name c
  let c := (skipBlanks c).skipComment
  if !atLineEnd c.ahead then none else
  some (directive, match c.lineBreak? with | some (_, c) => c | none => c)

end Pipeworks.Yaml
