/-
How a double-precision number is laid out: which magnitudes are written positionally, and how the
exponent of the others looks. A positional number always shows a fractional part.
-/
import Pipeworks.Decimal.Shortest

namespace Pipeworks.Decimal

/-- The range of decimal exponents written positionally (none: all), whether a positive exponent
shows its sign, and the least number of its digits. -/
structure Layout where
  positional : Option (Int × Int)
  plusSign : Bool
  exponentDigits : Nat

def digitChar (d : Nat) : Char := Char.ofNat (48 + d)

def paddedLeft (width : Nat) (cs : List Char) : List Char :=
  List.replicate (width - cs.length) '0' ++ cs

/-- Positional digits around the point. -/
def Digits.positional (d : Digits) : List Char :=
  let cs := d.digits.map digitChar
  if d.point ≤ 0 then '0' :: '.' :: List.replicate (-d.point).toNat '0' ++ cs
  else
    let k := d.point.toNat
    if cs.length ≤ k then cs ++ List.replicate (k - cs.length) '0' ++ ['.', '0']
    else cs.take k ++ '.' :: cs.drop k

/-- One digit before the point and an exponent after the digits. -/
def Digits.scientific (layout : Layout) (d : Digits) : List Char :=
  let e := d.point - 1
  let mantissa := match d.digits.map digitChar with
    | [] => ['0']
    | [c] => [c]
    | c :: cs => c :: '.' :: cs
  let sign := if e < 0 then ['-'] else if layout.plusSign then ['+'] else []
  mantissa ++ 'e' :: sign ++ paddedLeft layout.exponentDigits (Nat.toDigits 10 e.natAbs)

/-- The text of a finite number. -/
def Layout.write (layout : Layout) (x : Binary64) : String :=
  let sign := if x.isNegative then ['-'] else []
  if x.isZero then String.ofList (sign ++ ['0', '.', '0']) else
  let d := shortest x
  let e := d.point - 1
  let inRange := match layout.positional with
    | none => true
    | some (low, high) => low ≤ e && e ≤ high
  String.ofList (sign ++ if inRange then d.positional else d.scientific layout)

/-- Every digit up to the point is written, whatever the size. -/
def plain : Layout := ⟨none, false, 1⟩

/-- Positional from 10⁻⁵ to below 10¹⁶, and a bare exponent beyond. -/
def compact : Layout := ⟨some (-5, 15), false, 1⟩

/-- As `compact`, with a sign and two digits in every exponent. -/
def signedExponent : Layout := ⟨some (-5, 15), true, 2⟩

end Pipeworks.Decimal
