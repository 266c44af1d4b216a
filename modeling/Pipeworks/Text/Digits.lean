/-
Digits: whole numbers in decimal, and bytes as pairs of hexadecimal digits, read in either case.
-/
import Pipeworks.Text.Utf8

namespace Pipeworks.Text

def isDigit (c : Char) : Bool := '0' ≤ c && c ≤ '9'

/-- The value of digits, of which there has to be one at least. -/
def digitsValue? (cs : List Char) : Option Nat :=
  if !cs.isEmpty && cs.all isDigit then
    some (cs.foldl (fun n c => n * 10 + (c.toNat - 48)) 0)
  else none

end Pipeworks.Text

namespace Pipeworks.Hex

/-- The value of a digit of either case. -/
def digit? (c : Char) : Option Nat :=
  let n := c.toNat
  if 48 ≤ n && n ≤ 57 then some (n - 48)
  else if 97 ≤ n && n ≤ 102 then some (n - 87)
  else if 65 ≤ n && n ≤ 70 then some (n - 55)
  else none

def lowerDigit (n : Nat) : Char := if n < 10 then Char.ofNat (48 + n) else Char.ofNat (87 + n)

def upperDigit (n : Nat) : Char := if n < 10 then Char.ofNat (48 + n) else Char.ofNat (55 + n)

def encodeByte (b : UInt8) : List Char := [lowerDigit (b.toNat / 16), lowerDigit (b.toNat % 16)]

/-- Two lower-case digits for every byte. -/
def encode (bytes : Bytes) : List Char := bytes.flatMap encodeByte

/-- The bytes of an even number of digits. -/
def decode? : List Char → Option Bytes
  | [] => some []
  | [_] => none
  | a :: b :: rest =>
    match digit? a, digit? b, decode? rest with
    | some x, some y, some bytes => some ((x * 16 + y).toUInt8 :: bytes)
    | _, _, _ => none

/-- The digits of `n` without leading zeros. -/
def ofNat (n : Nat) : List Char := Nat.toDigits 16 n

end Pipeworks.Hex
