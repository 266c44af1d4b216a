/-
Text as bytes. `encode` writes UTF-8; `scan` reads any bytes, keeping every well-formed character
and one gap for each longest piece that cannot start or continue a character.
-/
namespace Pipeworks

/-- Bytes in the order they are sent or stored. -/
abbrev Bytes := List UInt8

namespace Utf8

/-! ## Writing -/

/-- The bytes of one code point. -/
def encodeNat (n : Nat) : Bytes :=
  if n < 0x80 then [n.toUInt8]
  else if n < 0x800 then [(0xC0 + n / 0x40).toUInt8, (0x80 + n % 0x40).toUInt8]
  else if n < 0x10000 then
    [(0xE0 + n / 0x1000).toUInt8, (0x80 + n / 0x40 % 0x40).toUInt8, (0x80 + n % 0x40).toUInt8]
  else
    [(0xF0 + n / 0x40000).toUInt8, (0x80 + n / 0x1000 % 0x40).toUInt8,
      (0x80 + n / 0x40 % 0x40).toUInt8, (0x80 + n % 0x40).toUInt8]

def encodeChar (c : Char) : Bytes := encodeNat c.toNat

def encode (cs : List Char) : Bytes := cs.flatMap encodeChar

/-! ## Reading -/

/-- A character in the making: the bytes still to come, the range of the next one and the bits
collected so far. -/
structure Pending where
  left : Nat
  low : Nat
  high : Nat
  bits : Nat
  deriving DecidableEq

/-- What has been read, latest first, and the character in the making. -/
structure Scan where
  read : List (Option Char) := []
  pending : Option Pending := none

/-- Takes a byte that starts a character; one that cannot is a gap of its own. -/
def Scan.lead (s : Scan) (b : Nat) : Scan :=
  let await (left low high bits : Nat) : Scan := ⟨s.read, some ⟨left, low, high, bits⟩⟩
  if b < 0x80 then ⟨some (Char.ofNat b) :: s.read, none⟩
  else if b < 0xC2 then ⟨none :: s.read, none⟩
  else if b < 0xE0 then await 1 0x80 0xBF (b - 0xC0)
  else if b = 0xE0 then await 2 0xA0 0xBF 0
  else if b = 0xED then await 2 0x80 0x9F 0xD
  else if b < 0xF0 then await 2 0x80 0xBF (b - 0xE0)
  else if b = 0xF0 then await 3 0x90 0xBF 0
  else if b < 0xF4 then await 3 0x80 0xBF (b - 0xF0)
  else if b = 0xF4 then await 3 0x80 0x8F 4
  else ⟨none :: s.read, none⟩

/-- Takes the next byte; one outside the awaited range leaves a gap and starts anew. -/
def Scan.step (s : Scan) (byte : UInt8) : Scan :=
  let b := byte.toNat
  match s.pending with
  | none => s.lead b
  | some p =>
    if p.low ≤ b ∧ b ≤ p.high then
      let bits := p.bits * 0x40 + (b - 0x80)
      if p.left = 1 then ⟨some (Char.ofNat bits) :: s.read, none⟩
      else ⟨s.read, some ⟨p.left - 1, 0x80, 0xBF, bits⟩⟩
    else Scan.lead ⟨none :: s.read, none⟩ b

/-- Closes the reading; an unfinished character is a gap. -/
def Scan.close (s : Scan) : List (Option Char) :=
  match s.pending with
  | none => s.read.reverse
  | some _ => (none :: s.read).reverse

/-- The characters of `bytes`, with `none` for every gap. -/
def scan (bytes : Bytes) : List (Option Char) := (bytes.foldl Scan.step {}).close

/-- The text of `bytes`, if they are UTF-8 throughout. -/
def decode? (bytes : Bytes) : Option (List Char) :=
  let read := scan bytes
  if read.all Option.isSome then some (read.filterMap id) else none

/-- The text of `bytes` with the replacement character for every gap. -/
def decodeLossy (bytes : Bytes) : List Char := (scan bytes).map (·.getD '\uFFFD')

end Utf8

namespace Text

def bytes (s : String) : Bytes := Utf8.encode s.toList

def ofBytes? (b : Bytes) : Option String := (Utf8.decode? b).map String.ofList

def ofBytesLossy (b : Bytes) : String := String.ofList (Utf8.decodeLossy b)

end Text

end Pipeworks
