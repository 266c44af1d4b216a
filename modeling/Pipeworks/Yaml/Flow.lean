/-
Scalars that end where their line of thought does: quoted ones at the closing quote, plain ones where
something else can start. Line breaks inside them fold.
-/
import Pipeworks.Text.Digits
import Pipeworks.Yaml.Cursor

namespace Pipeworks.Yaml

/-! ## Quoted scalars -/

/-- What stands behind the backslash of an escape. -/
inductive Escape where
  | char (c : Char)
  /-- A code point in so many hexadecimal digits. -/
  | digits (n : Nat)

def escape? : Char → Option Escape
  | '0' => some (.char '\x00')
  | 'a' => some (.char '\x07')
  | 'b' => some (.char '\x08')
  | 't' => some (.char '\t')
  | '\t' => some (.char '\t')
  | 'n' => some (.char '\n')
  | 'v' => some (.char '\x0b')
  | 'f' => some (.char '\x0c')
  | 'r' => some (.char '\r')
  | 'e' => some (.char '\x1b')
  | ' ' => some (.char ' ')
  | '"' => some (.char '"')
  | '/' => some (.char '/')
  | '\\' => some (.char '\\')
  | 'N' => some (.char '\u0085')
  | '_' => some (.char '\u00a0')
  | 'L' => some (.char '\u2028')
  | 'P' => some (.char '\u2029')
  | 'x' => some (.digits 2)
  | 'u' => some (.digits 4)
  | 'U' => some (.digits 8)
  | _ => none

/-- The code point of exactly `n` hexadecimal digits, if it is a character. -/
def codePoint? (n : Nat) (ahead : List Char) : Option Char :=
  let ds := (ahead.take n).filterMap Hex.digit?
  let value := ds.foldl (fun v d => v * 16 + d) 0
  if ds.length = n ∧ value.isValidChar then some (Char.ofNat value) else none

/-- The character of the escape ahead, behind its backslash. -/
def readEscape (c : Cursor) : Option (Char × Cursor) :=
  match c.ahead with
  | [] => none
  | ch :: rest =>
    match escape? ch with
    | none => none
    | some (.char e) => some (e, c.skip 1)
    | some (.digits n) => (codePoint? n rest).map (·, c.skip (n + 1))

/-- Reads a quoted scalar to its closing quote; `acc` holds its characters, last first. -/
def readQuoted (single : Bool) : Nat → List Char → Cursor → Option (List Char × Cursor)
  | 0, _, _ => none
  | fuel + 1, acc, c =>
    let gap (g : Gap) (c : Cursor) : Option (List Char × Cursor) :=
      match gapAt 0 g c with
      | some (g, c) => readQuoted single fuel (g.text.reverse ++ acc) c
      | none => none
    if c.atDocumentMark then none else
    match c.ahead with
    | [] => none
    | ch :: rest =>
      if isBlank ch || isBreak ch then gap {} c
      else if single then
        match ch, rest with
        | '\'', '\'' :: _ => readQuoted single fuel ('\'' :: acc) (c.skip 2)
        | '\'', _ => some (acc.reverse, c.skip 1)
        | ch, _ => readQuoted single fuel (ch :: acc) (c.skip 1)
      else
        match ch with
        | '"' => some (acc.reverse, c.skip 1)
        | '\\' =>
          match (c.skip 1).lineBreak? with
          | some (_, c) => gap { broken := true } c
          | none =>
            match readEscape (c.skip 1) with
            | some (e, c) => readQuoted single fuel (e :: acc) c
            | none => none
        | ch => readQuoted single fuel (ch :: acc) (c.skip 1)

/-- The quoted scalar whose opening quote is ahead. -/
def quotedScalar (single : Bool) (c : Cursor) : Option (List Char × Cursor) :=
  readQuoted single (c.left + 1) [] (c.skip 1)

/-! ## Plain scalars -/

/-- The characters ahead of a plain scalar's line up to a gap or an indicator, last first; none
where a colon makes no sense. -/
def plainWord (inFlow : Bool) (acc : List Char) : List Char → Option (List Char)
  | [] => some acc
  | ':' :: rest =>
    if inFlow && (match rest with | ch :: _ => ",?[]\x7b\x7d".toList.contains ch | [] => false) then
      none
    else if atGap rest then some acc
    else plainWord inFlow (':' :: acc) rest
  | ch :: rest =>
    if isBlank ch || isBreak ch || (inFlow && ",[]\x7b\x7d".toList.contains ch) then some acc
    else plainWord inFlow (ch :: acc) rest

/-- Reads a plain scalar; `acc` holds its characters, last first, and `g` the gap after them. Returns
whether its last line has ended. -/
def readPlain (inFlow : Bool) (limit : Int) :
    Nat → List Char → Gap → Cursor → Option (List Char × Bool × Cursor)
  | 0, _, _, _ => none
  | fuel + 1, acc, g, c =>
    let done := some (acc.reverse, g.broken, c)
    if c.atDocumentMark then done else
    match c.ahead with
    | '#' :: _ => done
    | ahead =>
      match plainWord inFlow [] ahead with
      | none => none
      | some word =>
        let c := c.skip word.length
        let (acc, g) := if word.isEmpty then (acc, g) else (word ++ g.text.reverse ++ acc, {})
        let done := some (acc.reverse, g.broken, c)
        match c.ahead with
        | [] => done
        | ch :: _ =>
          if !(isBlank ch || isBreak ch) then done else
          match gapAt limit g c with
          | none => none
          | some (g, c) =>
            if !inFlow && (c.column : Int) < limit then some (acc.reverse, g.broken, c)
            else readPlain inFlow limit fuel acc g c

/-- The plain scalar ahead, whose lines are indented to `limit` at least outside flow collections. -/
def plainScalar (inFlow : Bool) (limit : Int) (c : Cursor) : Option (List Char × Bool × Cursor) :=
  readPlain inFlow limit (c.left + 1) [] {} c

end Pipeworks.Yaml
