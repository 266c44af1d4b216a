/-
Reading JSON. The input is the characters of the bytes, with a gap for bytes that are no text; a gap
may stand inside a string only, and makes that string no text.
-/
import Pipeworks.Json.Node
import Pipeworks.Text.Digits
import Pipeworks.Text.Utf8

namespace Pipeworks.Json

abbrev Input := List (Option Char)

/-- The four blanks of JSON. -/
def isSpace : Option Char → Bool
  | some ' ' => true
  | some '\n' => true
  | some '\t' => true
  | some '\r' => true
  | _ => false

def skipSpace (input : Input) : Input := input.dropWhile isSpace

/-! ## Strings -/

/-- A piece of a string: a character, a code unit from an escape, or a gap. -/
inductive Piece where
  | char (c : Char)
  | unit (n : Nat)
  | gap

/-- The character of a one-letter escape. -/
def unescape : Char → Option Char
  | '"' => some '"'
  | '\\' => some '\\'
  | '/' => some '/'
  | 'b' => some '\x08'
  | 'f' => some '\x0c'
  | 'n' => some '\n'
  | 'r' => some '\r'
  | 't' => some '\t'
  | _ => none

/-- The code unit of four hexadecimal digits. -/
def unitOf (a b c d : Option Char) : Option Nat :=
  match a.bind Hex.digit?, b.bind Hex.digit?, c.bind Hex.digit?, d.bind Hex.digit? with
  | some w, some x, some y, some z => some (((w * 16 + x) * 16 + y) * 16 + z)
  | _, _, _, _ => none

/-- The pieces up to the closing quote, and the input after it. -/
def pieces (acc : List Piece) : Input → Option (List Piece × Input)
  | [] => none
  | none :: rest => pieces (.gap :: acc) rest
  | some '"' :: rest => some (acc.reverse, rest)
  | some '\\' :: some 'u' :: a :: b :: c :: d :: rest =>
    match unitOf a b c d with
    | some n => pieces (.unit n :: acc) rest
    | none => none
  | some '\\' :: some e :: rest =>
    match unescape e with
    | some c => pieces (.char c :: acc) rest
    | none => none
  | some '\\' :: _ => none
  | some c :: rest => if c.toNat < 0x20 then none else pieces (.char c :: acc) rest

/-- The text of the pieces: surrogates must come in pairs, and a gap is no text. -/
def join (acc : List Char) : List Piece → Option (List Char)
  | [] => some acc.reverse
  | .gap :: _ => none
  | .char c :: rest => join (c :: acc) rest
  | .unit n :: rest =>
    if n < 0xD800 ∨ 0xDFFF < n then join (Char.ofNat n :: acc) rest
    else if 0xDC00 ≤ n then none
    else match rest with
      | .unit m :: rest =>
        if 0xDC00 ≤ m ∧ m ≤ 0xDFFF then
          join (Char.ofNat (0x10000 + (n - 0xD800) * 0x400 + (m - 0xDC00)) :: acc) rest
        else none
      | _ => none

/-- A string after its opening quote. -/
def stringRest (input : Input) : Option (Option String × Input) :=
  (pieces [] input).map fun (ps, rest) => ((join [] ps).map String.ofList, rest)

/-! ## Numbers -/

def isDigit : Option Char → Bool
  | some c => '0' ≤ c && c ≤ '9'
  | none => false

def digits (input : Input) : List Char × Input :=
  ((input.takeWhile isDigit).filterMap id, input.dropWhile isDigit)

/-- The whole part: a lone zero, or digits that start with none. -/
def wholePart (input : Input) : Option (List Char × Input) :=
  match digits input with
  | ([], _) => none
  | (['0'], rest) => some (['0'], rest)
  | ('0' :: _, _) => none
  | (ds, rest) => some (ds, rest)

def fractionPart : Input → Option (List Char × Input)
  | some '.' :: rest =>
    match digits rest with
    | ([], _) => none
    | (ds, rest) => some (ds, rest)
  | input => some ([], input)

def exponentDigits (negative : Bool) (input : Input) : Option (Option (Bool × List Char) × Input) :=
  match digits input with
  | ([], _) => none
  | (ds, rest) => some (some (negative, ds), rest)

def exponentSign : Input → Option (Option (Bool × List Char) × Input)
  | some '+' :: rest => exponentDigits false rest
  | some '-' :: rest => exponentDigits true rest
  | rest => exponentDigits false rest

def exponentPart : Input → Option (Option (Bool × List Char) × Input)
  | some 'e' :: rest => exponentSign rest
  | some 'E' :: rest => exponentSign rest
  | input => some (none, input)

/-- A number after its sign. -/
def numeral (negative : Bool) (input : Input) : Option (Numeral × Input) := do
  let (whole, rest) ← wholePart input
  let (fraction, rest) ← fractionPart rest
  let (exponent, rest) ← exponentPart rest
  some (⟨negative, whole, fraction, exponent⟩, rest)

/-! ## Values -/

/-- A node and the input after it; no input after the place where the text stops being JSON. -/
abbrev Reading := Node × Option Input

def stopped : Reading := (.broken, none)

def word (text : String) (node : Node) (input : Input) : Reading :=
  let w := text.toList.map some
  if w.isPrefixOf input then (node, some (input.drop w.length)) else stopped

def numberNode (negative : Bool) (input : Input) : Reading :=
  match numeral negative input with
  | some (n, rest) => (.number n, some rest)
  | none => stopped

mutual

def readValue : Nat → Input → Reading
  | 0, _ => stopped
  | fuel + 1, input =>
    match skipSpace input with
    | some '\x7b' :: rest =>
      match skipSpace rest with
      | some '\x7d' :: rest => (.object [] true, some rest)
      | rest => readMembers fuel [] rest
    | some '[' :: rest =>
      match skipSpace rest with
      | some ']' :: rest => (.array [] true, some rest)
      | rest => readItems fuel [] rest
    | some '"' :: rest =>
      match stringRest rest with
      | some (s, rest) => (.string s, some rest)
      | none => stopped
    | some 'n' :: rest => word "ull" .null rest
    | some 't' :: rest => word "rue" (.bool true) rest
    | some 'f' :: rest => word "alse" (.bool false) rest
    | some '-' :: rest => numberNode true rest
    | rest => numberNode false rest

/-- The items of an array, the earlier ones in `acc`. -/
def readItems : Nat → List Node → Input → Reading
  | 0, acc, _ => (.array acc.reverse false, none)
  | fuel + 1, acc, input =>
    match readValue fuel input with
    | (v, none) => (.array (v :: acc).reverse false, none)
    | (v, some rest) =>
      match skipSpace rest with
      | some ',' :: rest => readItems fuel (v :: acc) rest
      | some ']' :: rest => (.array (v :: acc).reverse true, some rest)
      | _ => (.array (v :: acc).reverse false, none)

/-- The members of an object, the earlier ones in `acc`. -/
def readMembers : Nat → List (Option String × Node) → Input → Reading
  | 0, acc, _ => (.object acc.reverse false, none)
  | fuel + 1, acc, input =>
    match skipSpace input with
    | some '"' :: rest =>
      match stringRest rest with
      | none => (.object acc.reverse false, none)
      | some (key, rest) =>
        match skipSpace rest with
        | some ':' :: rest =>
          match readValue fuel rest with
          | (v, none) => (.object ((key, v) :: acc).reverse false, none)
          | (v, some rest) =>
            match skipSpace rest with
            | some ',' :: rest => readMembers fuel ((key, v) :: acc) rest
            | some '\x7d' :: rest => (.object ((key, v) :: acc).reverse true, some rest)
            | _ => (.object ((key, v) :: acc).reverse false, none)
        | _ => (.object ((key, .broken) :: acc).reverse false, none)
    | _ => (.object acc.reverse false, none)

end

/-- A text read as one value, and whether nothing but blanks follows it. -/
structure Document where
  root : Node
  complete : Bool

def Document.ofInput (input : Input) : Document :=
  match readValue (2 * input.length + 2) input with
  | (root, none) => ⟨root, false⟩
  | (root, some rest) => ⟨root, (skipSpace rest).isEmpty⟩

def Document.ofText (s : String) : Document := Document.ofInput (s.toList.map some)

def Document.ofBytes (b : Bytes) : Document := Document.ofInput (Utf8.scan b)

end Pipeworks.Json
