/-
The place in a YAML text up to which it has been read, with its line and column, and the blanks and
line breaks that separate the words of a scalar.
-/
namespace Pipeworks.Yaml

/-- A space or a tab. -/
def isBlank (c : Char) : Bool := c == ' ' || c == '\t'

/-- A character that ends a line. -/
def isBreak (c : Char) : Bool :=
  c == '\n' || c == '\r' || c == '\u0085' || c == '\u2028' || c == '\u2029'

/-- Whether a line ends here. -/
def atLineEnd : List Char → Bool
  | [] => true
  | c :: _ => isBreak c

/-- Whether a word ends here. -/
def atGap : List Char → Bool
  | [] => true
  | c :: _ => isBlank c || isBreak c

/-- A character of a name: an ASCII letter or digit, a dash or an underscore. -/
def isNameChar (c : Char) : Bool := c.isAlphanum || c == '-' || c == '_'

/-- The text ahead with its length, and how far it is from the start of the text and of the line. -/
structure Cursor where
  ahead : List Char
  left : Nat
  index : Nat := 0
  line : Nat := 0
  column : Nat := 0

namespace Cursor

/-- Passes `n` characters of a line. -/
def skip (c : Cursor) (n : Nat) : Cursor :=
  ⟨c.ahead.drop n, c.left - n, c.index + n, c.line, c.column + n⟩

/-- The cursor at the start of a text. -/
def start (text : List Char) : Cursor := ⟨text, text.length, 0, 0, 0⟩

/-- Passes the characters that satisfy `p`, and returns them. -/
def run (p : Char → Bool) (c : Cursor) : List Char × Cursor :=
  let taken := c.ahead.takeWhile p
  (taken, c.skip taken.length)

/-- A line break and the start of the next line. Most breaks count as a line feed. -/
def lineBreak? (c : Cursor) : Option (Char × Cursor) :=
  let next (b : Char) (n : Nat) (rest : List Char) : Option (Char × Cursor) :=
    some (b, ⟨rest, c.left - n, c.index + n, c.line + 1, 0⟩)
  match c.ahead with
  | '\r' :: '\n' :: rest => next '\n' 2 rest
  | '\r' :: rest => next '\n' 1 rest
  | '\n' :: rest => next '\n' 1 rest
  | '\u0085' :: rest => next '\n' 1 rest
  | '\u2028' :: rest => next '\u2028' 1 rest
  | '\u2029' :: rest => next '\u2029' 1 rest
  | _ => none

/-- Passes a byte order mark at the very start. -/
def skipMark (c : Cursor) : Cursor :=
  match c.ahead with
  | '\uFEFF' :: _ => if c.index = 0 then c.skip 1 else c
  | _ => c

/-- Passes the rest of a comment's line. -/
def skipComment (c : Cursor) : Cursor :=
  match c.ahead with
  | '#' :: _ => (c.run fun ch => !isBreak ch).2
  | _ => c

/-- Whether a line starts here that separates documents. -/
def atDocumentMark (c : Cursor) : Bool :=
  c.column == 0 && match c.ahead with
    | '-' :: '-' :: '-' :: rest => atGap rest
    | '.' :: '.' :: '.' :: rest => atGap rest
    | _ => false

end Cursor

/-! ## Gaps between words -/

/-- Blanks and breaks between two words. Once a line has ended the blanks do not count. -/
structure Gap where
  /-- The blanks, last first, while the line has not ended. -/
  blanks : List Char := []
  /-- Whether the line has ended. -/
  broken : Bool := false
  /-- The first break, unless it was escaped. -/
  first : Option Char := none
  /-- The breaks after it, last first. -/
  more : List Char := []

/-- What a gap becomes in a scalar: a single line feed folds into a space. -/
def Gap.text (g : Gap) : List Char :=
  if !g.broken then g.blanks.reverse
  else match g.first with
    | none => g.more.reverse
    | some '\n' => if g.more.isEmpty then [' '] else g.more.reverse
    | some b => b :: g.more.reverse

/-- Reads on through blanks and breaks. None if a tab stands before column `limit` of a line that
starts in the gap. -/
def readGap (limit : Int) : Nat → Gap → Cursor → Option (Gap × Cursor)
  | 0, g, c => some (g, c)
  | fuel + 1, g, c =>
    match c.lineBreak? with
    | some (b, c) =>
      if g.broken then readGap limit fuel { g with more := b :: g.more } c
      else readGap limit fuel { g with broken := true, first := some b } c
    | none =>
      match c.ahead with
      | ch :: _ =>
        if !isBlank ch then some (g, c)
        else if !g.broken then readGap limit fuel { g with blanks := ch :: g.blanks } (c.skip 1)
        else if ch = '\t' ∧ (c.column : Int) < limit then none
        else readGap limit fuel g (c.skip 1)
      | [] => some (g, c)

/-- The gap ahead, after what has been read of it before. -/
def gapAt (limit : Int) (g : Gap) (c : Cursor) : Option (Gap × Cursor) :=
  readGap limit (c.left + 1) g c

end Pipeworks.Yaml
