/-
The tokens of a YAML text. Block structure comes from the columns, and the start of a simple key is
known only once its colon has been seen; so tokens are certain only up to the oldest word that may
still turn out to be a key, and a fault takes the others with it.
-/
import Pipeworks.Yaml.Block
import Pipeworks.Yaml.Flow
import Pipeworks.Yaml.Tag

namespace Pipeworks.Yaml

inductive Token where
  | directive (d : Directive)
  | documentStart
  | documentEnd
  | blockSequence
  | blockMapping
  | blockEnd
  | flowSequence
  | flowSequenceEnd
  | flowMapping
  | flowMappingEnd
  | blockEntry
  | flowEntry
  | key
  | value
  | alias (name : List Char)
  | anchor (name : List Char)
  | tag (word : TagWord)
  | scalar (text : List Char) (plain : Bool)
  | streamEnd
  deriving DecidableEq

/-- A word that may be a key: where it stands, the number of its first token, and whether it has to
be a key because of its column. -/
structure Candidate where
  number : Nat
  line : Nat
  index : Nat
  column : Nat
  required : Bool

structure Lexer where
  cursor : Cursor
  /-- The tokens so far, last first, and their number. -/
  tokens : List Token := []
  count : Nat := 0
  /-- The column of the current block collection, and of those around it. -/
  indent : Int := -1
  outer : List Int := []
  /-- Whether a key may start here. -/
  keyAllowed : Bool := true
  /-- The candidate of each open flow collection, innermost first, and last the one outside. -/
  candidates : List (Option Candidate) := [none]
  ended : Bool := false

namespace Lexer

/-! ## Tokens and keys -/

def inFlow (l : Lexer) : Bool := 1 < l.candidates.length

def push (t : Token) (l : Lexer) : Lexer := { l with tokens := t :: l.tokens, count := l.count + 1 }

/-- Puts a token before the one with the given number. -/
def insert (number : Nat) (t : Token) (l : Lexer) : Lexer :=
  let back := l.count - number
  { l with
    tokens := l.tokens.take back ++ t :: l.tokens.drop back
    count := l.count + 1 }

/-- Passes `n` characters. -/
def advance (n : Nat) (l : Lexer) : Lexer := { l with cursor := l.cursor.skip n }

/-- Passes a one-character token. -/
def indicator (t : Token) (l : Lexer) : Lexer := (l.push t).advance 1

/-- The innermost candidate. -/
def candidate (l : Lexer) : Option Candidate := l.candidates.head?.join

def setCandidate (k : Option Candidate) (l : Lexer) : Lexer :=
  { l with candidates := k :: l.candidates.drop 1 }

/-- Gives up the innermost candidate; none if it had to be a key. -/
def dropCandidate (l : Lexer) : Option Lexer :=
  match l.candidate with
  | some k => if k.required then none else some (l.setCandidate none)
  | none => some l

/-- Notes that a key may start here. -/
def noteCandidate (l : Lexer) : Option Lexer :=
  if !l.keyAllowed then some l else
  let c := l.cursor
  let required := !l.inFlow && l.indent == c.column
  l.dropCandidate.map (·.setCandidate (some ⟨l.count, c.line, c.index, c.column, required⟩))

def allowKey (allowed : Bool) (l : Lexer) : Lexer := { l with keyAllowed := allowed }

/-- A key stands on one line and within 1024 characters. -/
def isStale (c : Cursor) (k : Candidate) : Bool := k.line < c.line || k.index + 1024 < c.index

/-- Gives up all candidates that are too far back; none if one of them had to be a key. -/
def dropStale (l : Lexer) : Option Lexer :=
  let stale (k : Option Candidate) : Bool := k.any (isStale l.cursor)
  if l.candidates.any fun k => stale k && k.any (·.required) then none
  else some { l with candidates := l.candidates.map fun k => if stale k then none else k }

/-- The number of the oldest token that may still be a key. -/
def certain (l : Lexer) : Nat := l.candidates.foldl (fun n k => min n (k.elim n (·.number))) l.count

/-! ## Indentation -/

/-- Opens a block collection at a column to the right of the current one. -/
def openBlock (column : Nat) (t : Token) (number : Option Nat) (l : Lexer) : Lexer :=
  if l.inFlow || (column : Int) ≤ l.indent then l else
  let l := { l with outer := l.indent :: l.outer, indent := column }
  match number with
  | none => l.push t
  | some n => l.insert n t

/-- Closes the block collections to the right of a column. -/
def closeBlocks (column : Int) (l : Lexer) : Lexer :=
  if l.inFlow then l else close l.outer { l with outer := [] }
where
  close : List Int → Lexer → Lexer
    | [], l => l
    | outer :: rest, l =>
      if column < l.indent then close rest ({ l with indent := outer }.push .blockEnd)
      else { l with outer := outer :: rest }

/-! ## One token -/

/-- Passes blanks, comments and line breaks. A tab may stand only where no key can start. -/
def skipGap : Nat → Lexer → Lexer
  | 0, l => l
  | fuel + 1, l =>
    let tabs := l.inFlow || !l.keyAllowed
    let c := ((l.cursor.skipMark.run fun ch => ch == ' ' || (tabs && ch == '\t')).2).skipComment
    match c.lineBreak? with
    | some (_, c) => skipGap fuel { l with cursor := c, keyAllowed := l.keyAllowed || !l.inFlow }
    | none => { l with cursor := c }

/-- Closes the block collections, and lets no key start. -/
def atMargin (l : Lexer) : Option Lexer :=
  (l.closeBlocks (-1)).dropCandidate.map (·.allowKey false)

/-- Ends the stream, and the last line if that is still open. -/
def endStream (l : Lexer) : Option Lexer :=
  let c := l.cursor
  let closed := if c.column = 0 then c else { c with line := c.line + 1, column := 0 }
  l.atMargin.map fun l => { l.push .streamEnd with ended := true, cursor := closed }

/-- Takes a word read at the cursor. -/
def take (t : Token) (c : Cursor) (l : Lexer) : Lexer := { l.push t with cursor := c }

def openFlow (t : Token) (l : Lexer) : Option Lexer := do
  let l ← l.noteCandidate
  some ({ l with candidates := none :: l.candidates, keyAllowed := true }.indicator t)

def closeFlow (t : Token) (l : Lexer) : Option Lexer := do
  let l ← l.dropCandidate
  let candidates := if l.inFlow then l.candidates.drop 1 else l.candidates
  some ({ l with candidates := candidates, keyAllowed := false }.indicator t)

/-- An indicator that opens a block collection at its column if need be. -/
def blockIndicator (opening t : Token) (l : Lexer) : Option Lexer := do
  let l ← if l.inFlow then some l
    else if l.keyAllowed then some (l.openBlock l.cursor.column opening none)
    else none
  some (l.indicator t)

def entry (l : Lexer) : Option Lexer := do
  let l ← l.blockIndicator .blockSequence .blockEntry
  (← l.dropCandidate).allowKey true

def keyMark (l : Lexer) : Option Lexer := do
  let l ← l.blockIndicator .blockMapping .key
  (← l.dropCandidate).allowKey !l.inFlow

def valueMark (l : Lexer) : Option Lexer :=
  match l.candidate with
  | some k =>
    let l := (l.insert k.number .key).openBlock k.column .blockMapping (some k.number)
    some (((l.setCandidate none).allowKey false).indicator .value)
  | none => do
    let l ← l.blockIndicator .blockMapping .value
    some (l.allowKey !l.inFlow)

/-- A word that may be a key. -/
def word (read : Cursor → Option (Token × Cursor)) (l : Lexer) : Option Lexer := do
  let l ← l.noteCandidate
  let (t, c) ← read l.cursor
  some ((l.allowKey false).take t c)

def plain (l : Lexer) : Option Lexer := do
  let l ← l.noteCandidate
  let (text, ended, c) ← plainScalar l.inFlow (l.indent + 1) l.cursor
  some ((l.allowKey ended).take (.scalar text true) c)

def block (literal : Bool) (l : Lexer) : Option Lexer := do
  let l ← l.dropCandidate
  let (text, c) ← blockScalar literal l.indent l.cursor
  some ((l.allowKey true).take (.scalar text false) c)

/-- Whether a plain scalar can start with `ch`, with `rest` behind it. -/
def startsPlain (inFlow : Bool) (ch : Char) (rest : List Char) : Bool :=
  if isBlank ch || isBreak ch then false
  else if ch == '-' then match rest with
    | next :: _ => !isBlank next
    | [] => true
  else if ch == '?' || ch == ':' then !inFlow && !atGap rest
  else !",[]\x7b\x7d#&*!|>'\"%@\x60".toList.contains ch

/-- The token at the cursor. -/
def token (l : Lexer) : Option Lexer :=
  match l.cursor.ahead with
  | [] => l.endStream
  | ch :: rest =>
    if l.cursor.column = 0 ∧ ch = '%' then do
      let l ← l.atMargin
      let (d, c) ← directiveLine l.cursor
      some (l.take (.directive d) c)
    else if l.cursor.atDocumentMark then do
      let l ← l.atMargin
      some (l.take (if ch = '-' then .documentStart else .documentEnd) (l.cursor.skip 3))
    else match ch with
      | '[' => l.openFlow .flowSequence
      | '\x7b' => l.openFlow .flowMapping
      | ']' => l.closeFlow .flowSequenceEnd
      | '\x7d' => l.closeFlow .flowMappingEnd
      | ',' => do some (((← l.dropCandidate).allowKey true).indicator .flowEntry)
      | '*' => l.word fun c => (anchorName c).map fun (n, c) => (.alias n, c)
      | '&' => l.word fun c => (anchorName c).map fun (n, c) => (.anchor n, c)
      | '!' => l.word fun c => (tagWord l.inFlow c).map fun (w, c) => (.tag w, c)
      | '\'' => l.word fun c => (quotedScalar true c).map fun (t, c) => (.scalar t false, c)
      | '"' => l.word fun c => (quotedScalar false c).map fun (t, c) => (.scalar t false, c)
      | ch =>
        if ch = '-' ∧ atGap rest then l.entry
        else if ch = '?' ∧ (l.inFlow ∨ atGap rest) then l.keyMark
        else if ch = ':' ∧ (l.inFlow ∨ atGap rest) then l.valueMark
        else if ch = '|' ∧ !l.inFlow then l.block true
        else if ch = '>' ∧ !l.inFlow then l.block false
        else if startsPlain l.inFlow ch rest then l.plain
        else none

/-- Reads one token, and those that its column calls for. -/
def step (l : Lexer) : Option Lexer := do
  let l ← (skipGap (l.cursor.left + 1) l).dropStale
  let l ← (l.closeBlocks l.cursor.column).token
  l.dropStale

end Lexer

/-! ## The tokens of a text -/

/-- Reads on. The text may be cut off: what ends within four characters of a cut is not read. Returns
the tokens that are certain. -/
def readTokens (cut : Bool) : Nat → Lexer → List Token
  | 0, l => l.tokens.reverse
  | fuel + 1, l =>
    if l.ended then l.tokens.reverse else
    match l.step with
    | some next =>
      if cut && (next.cursor.ahead.drop 3).isEmpty then l.tokens.reverse.take l.certain
      else readTokens cut fuel next
    | none => l.tokens.reverse.take l.certain

/-- The tokens of a text; they end with the end of the stream unless there is a fault. -/
def tokensOf (cut : Bool) (text : List Char) : List Token :=
  readTokens cut (text.length + 2) { cursor := .start text }

end Pipeworks.Yaml
