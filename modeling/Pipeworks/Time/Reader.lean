/-
Reading an instant. The form is lenient: `T`, `t` or one blank between date and time, blanks around
the parts of either, an offset or a zone name for UTC, any number of fraction digits of which nine
count, and years of any length behind a sign.
-/
import Pipeworks.Time.Instant
import Pipeworks.Text.Blank

namespace Pipeworks.Time

open Text (trimStart)

def isDigit (c : Char) : Bool := '0' ≤ c && c ≤ '9'

def digitsValue (ds : List Char) : Nat := ds.foldl (fun n c => n * 10 + (c.toNat - 48)) 0

/-- The first digits of a text, at most `width` of them where a width is given. -/
def leadingDigits (width : Option Nat) (cs : List Char) : List Char :=
  let ds := cs.takeWhile isDigit
  match width with
  | some w => ds.take w
  | none => ds

/-- A number of at least one digit. -/
def number (width : Option Nat) (cs : List Char) : Option (Nat × List Char) :=
  match leadingDigits width cs with
  | [] => none
  | ds => some (digitsValue ds, cs.drop ds.length)

/-- A two-digit part, after any blanks, in the given range. -/
def part (low high : Nat) (cs : List Char) : Option (Nat × List Char) := do
  let (n, rest) ← number (some 2) (trimStart cs)
  if low ≤ n ∧ n ≤ high then some (n, rest) else none

/-- A year: four digits at most, or any number of them behind a sign. -/
def year (cs : List Char) : Option (Int × List Char) := do
  let (y, rest) ← match trimStart cs with
    | '-' :: r => (number none r).map fun (n, r) => (-(n : Int), r)
    | '+' :: r => (number none r).map fun (n, r) => ((n : Int), r)
    | r => (number (some 4) r).map fun (n, r) => ((n : Int), r)
  if minYear ≤ y ∧ y ≤ maxYear then some (y, rest) else none

/-- The character `c`, after any blanks. -/
def mark (c : Char) (cs : List Char) : Option (List Char) :=
  match trimStart cs with
  | d :: rest => if d = c then some rest else none
  | [] => none

/-- A fraction of a second in nanoseconds, if there is one. -/
def fraction : List Char → Option (Nat × List Char)
  | '.' :: cs => do
    let ds := leadingDigits (some 9) cs
    if ds.isEmpty then none
    else some (digitsValue ds * Nat.pow 10 (9 - ds.length), cs.dropWhile isDigit)
  | cs => some (0, cs)

def asciiLower (c : Char) : Char := if 'A' ≤ c ∧ c ≤ 'Z' then Char.ofNat (c.toNat + 32) else c

/-- The distance of local time from UTC, in seconds. -/
def offset (cs : List Char) : Option (Int × List Char) :=
  if (cs.take 3).map asciiLower = ['u', 't', 'c'] then some (0, cs.drop 3) else
  match cs with
  | 'Z' :: rest => some (0, rest)
  | 'z' :: rest => some (0, rest)
  | sign :: a :: b :: rest =>
    let tail := rest.dropWhile fun c => c == ':' || Text.isBlank c
    match tail with
    | c :: d :: rest =>
      if isDigit a ∧ isDigit b ∧ isDigit d ∧ '0' ≤ c ∧ c ≤ '5' then
        let hours := digitsValue [a, b]
        let distance : Int := hours * 3600 + digitsValue [c, d] * 60
        if hours > 23 then none
        else if sign = '+' then some (distance, rest)
        else if sign = '-' ∨ sign = '−' then some (-distance, rest)
        else none
      else none
    | _ => none
  | _ => none

/-- The instant a text stands for. -/
def Instant.ofChars? (cs : List Char) : Option Instant := do
  let (y, cs) ← year cs
  let cs ← mark '-' cs
  let (m, cs) ← part 1 12 cs
  let cs ← mark '-' cs
  let (d, cs) ← part 1 31 cs
  let cs ← match cs with
    | 'T' :: r => some r
    | 't' :: r => some r
    | ' ' :: r => some r
    | _ => none
  let (hour, cs) ← part 0 23 cs
  let cs ← mark ':' cs
  let (minute, cs) ← part 0 59 cs
  let cs ← mark ':' cs
  let (sec, cs) ← part 0 60 cs
  let (nanos, cs) ← fraction cs
  let (away, cs) ← offset (trimStart cs)
  if !(trimStart cs).isEmpty then none else
  if d > daysInMonth y m then none else
  let second := hour * 3600 + minute * 60 + (if sec = 60 then 59 else sec)
  let nanos := if sec = 60 then nanos + nanosPerSecond else nanos
  let reading ← Reading.minusOffset ⟨⟨y, m, d⟩, second, nanos⟩ away
  if h : reading.Valid then some ⟨reading, h⟩ else none

def Instant.ofText? (s : String) : Option Instant := Instant.ofChars? s.toList

end Pipeworks.Time
