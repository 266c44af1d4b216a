/-
Block scalars: whole lines below a header, literal or folded, told from what follows by their
indentation. The header may fix the indentation and what becomes of the breaks at the end.
-/
import Pipeworks.Yaml.Cursor

namespace Pipeworks.Yaml

/-- What becomes of the breaks at the end: all dropped, one kept, all kept. -/
inductive Chomping where
  | strip
  | clip
  | keep
  deriving DecidableEq

structure BlockHeader where
  chomping : Chomping := .clip
  /-- The indentation relative to the parent, if given. -/
  increment : Option Nat := none

def chomping? : List Char → Option Chomping
  | '+' :: _ => some .keep
  | '-' :: _ => some .strip
  | _ => none

/-- The digit ahead; the outer option is none for a zero. -/
def increment? : List Char → Option (Option Nat)
  | '0' :: _ => none
  | ch :: _ => if ch.isDigit then some (some (ch.toNat - 48)) else some none
  | [] => some none

/-- The header behind the indicator, up to the first line. -/
def blockHeader (c : Cursor) : Option (BlockHeader × Cursor) := do
  let (header, c) ← match chomping? c.ahead with
    | some chomping => do
      let c := c.skip 1
      let increment ← increment? c.ahead
      pure (BlockHeader.mk chomping increment, if increment.isSome then c.skip 1 else c)
    | none => do
      let increment ← increment? c.ahead
      if increment.isSome then
        let c := c.skip 1
        match chomping? c.ahead with
        | some chomping => pure (BlockHeader.mk chomping increment, c.skip 1)
        | none => pure (BlockHeader.mk .clip increment, c)
      else pure (BlockHeader.mk .clip none, c)
  let c := ((c.run isBlank).2).skipComment
  if atLineEnd c.ahead then
    pure (header, match c.lineBreak? with | some (_, c) => c | none => c)
  else none

/-- Passes indentation and empty lines. Returns the breaks, last first, and the widest indentation;
none if a tab stands in the indentation. -/
def emptyLines (indent : Option Int) : Nat → List Char → Nat → Cursor →
    Option (List Char × Nat × Cursor)
  | 0, _, _, _ => none
  | fuel + 1, breaks, widest, c =>
    let spaces := (c.ahead.takeWhile (· == ' ')).length
    let room := match indent with
      | none => spaces
      | some n => min spaces (n - c.column).toNat
    let c := c.skip room
    let widest := max widest c.column
    let before := match indent with
      | none => true
      | some n => (c.column : Int) < n
    match c.ahead with
    | '\t' :: _ => if before then none else some (breaks, widest, c)
    | _ =>
      match c.lineBreak? with
      | some (b, c) => emptyLines indent fuel (b :: breaks) widest c
      | none => some (breaks, widest, c)

def emptyLinesAt (indent : Option Int) (c : Cursor) : Option (List Char × Nat × Cursor) :=
  emptyLines indent (c.left + 1) [] 0 c

/-- The lines read so far: the text, last character first, the break after it and those behind. -/
structure Lines where
  text : List Char := []
  lastBreak : List Char := []
  breaks : List Char := []
  /-- Whether the last line started with a blank. -/
  spaced : Bool := false

/-- Reads the lines at the given indentation. -/
def readLines (literal : Bool) (indent : Int) : Nat → Lines → Cursor → Option (Lines × Cursor)
  | 0, _, _ => none
  | fuel + 1, ls, c =>
    if (c.column : Int) ≠ indent ∨ c.ahead.isEmpty then some (ls, c) else
    let spaced := match c.ahead with
      | ch :: _ => isBlank ch
      | [] => false
    let joint :=
      if !literal && ls.lastBreak == ['\n'] && !ls.spaced && !spaced then
        if ls.breaks.isEmpty then [' '] else []
      else ls.lastBreak
    let (line, c) := c.run fun ch => !isBreak ch
    let text := line.reverse ++ ls.breaks ++ joint ++ ls.text
    let (lastBreak, c) := match c.lineBreak? with
      | some (b, c) => ([b], c)
      | none => ([], c)
    match emptyLinesAt (some indent) c with
    | some (breaks, _, c) => readLines literal indent fuel ⟨text, lastBreak, breaks, spaced⟩ c
    | none => none

/-- The block scalar whose indicator is ahead, below a parent with the given indentation. -/
def blockScalar (literal : Bool) (parent : Int) (c : Cursor) : Option (List Char × Cursor) := do
  let (header, c) ← blockHeader (c.skip 1)
  let fixed : Option Int := header.increment.map fun n => if parent ≥ 0 then parent + n else n
  let (breaks, widest, c) ← emptyLinesAt fixed c
  let indent : Int := match fixed with
    | some n => n
    | none => max (max (widest : Int) (parent + 1)) 1
  let (ls, c) ← readLines literal indent (c.left + 1) { breaks := breaks } c
  let text := match header.chomping with
    | .strip => ls.text
    | .clip => ls.lastBreak ++ ls.text
    | .keep => ls.breaks ++ ls.lastBreak ++ ls.text
  pure (text.reverse, c)

end Pipeworks.Yaml
