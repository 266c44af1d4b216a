/-
Percent encoding: which bytes are written as a percent sign and two digits in which part of an
address, and the way back.
-/
import Pipeworks.Text.Digits

namespace Pipeworks.Url

/-- A set of bytes that have to be encoded. -/
abbrev ByteSet := UInt8 → Bool

def holds (chars : String) (b : UInt8) : Bool := chars.toList.any fun c => c.toNat == b.toNat

/-- Controls and all that is not ASCII. -/
def controls : ByteSet := fun b => b < 0x20 || 0x7F ≤ b

def inFragment : ByteSet := fun b => controls b || holds " \"<>\x60" b

def inQuery : ByteSet := fun b => controls b || holds " \"#<>" b

/-- In the queries of the common schemes. -/
def inCommonQuery : ByteSet := fun b => inQuery b || holds "'" b

def inPath : ByteSet := fun b => inFragment b || holds "#?\x7b\x7d" b

def inUser : ByteSet := fun b => inPath b || holds "/:;=@[\\]^|" b

/-- In a single segment of a path. -/
def inSegment : ByteSet := fun b => inPath b || holds "/%" b

/-- In a single segment of a path of the common schemes. -/
def inCommonSegment : ByteSet := fun b => inSegment b || holds "\\" b

def encodeByte (set : ByteSet) (b : UInt8) : List Char :=
  if set b then ['%', Hex.upperDigit (b.toNat / 16), Hex.upperDigit (b.toNat % 16)]
  else [Char.ofNat b.toNat]

def encode (set : ByteSet) (cs : List Char) : List Char :=
  (Utf8.encode cs).flatMap (encodeByte set)

def encoded (set : ByteSet) (cs : List Char) : String := String.ofList (encode set cs)

/-- The bytes with every escape replaced by its byte; what is no escape stays. -/
def decodeBytes : Bytes → Bytes
  | [] => []
  | 37 :: x :: y :: rest =>
    match Hex.digit? (Char.ofNat x.toNat), Hex.digit? (Char.ofNat y.toNat) with
    | some h, some l => (h * 16 + l).toUInt8 :: decodeBytes rest
    | _, _ => 37 :: decodeBytes (x :: y :: rest)
  | b :: rest => b :: decodeBytes rest

def decode (s : String) : Bytes := decodeBytes (Text.bytes s)

end Pipeworks.Url
