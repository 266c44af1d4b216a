/-
Double-precision numbers by their bits: the exact value of a finite one as a fraction, and the
nearest one to a fraction, where a tie goes to the even significand.
-/
namespace Pipeworks

/-- A double-precision number. -/
structure Binary64 where
  bits : UInt64
  deriving DecidableEq, Repr

namespace Binary64

def isNegative (x : Binary64) : Bool := x.bits.toNat ≥ Nat.pow 2 63

def biasedExponent (x : Binary64) : Nat := x.bits.toNat / Nat.pow 2 52 % Nat.pow 2 11

def fraction (x : Binary64) : Nat := x.bits.toNat % Nat.pow 2 52

def isNaN (x : Binary64) : Bool := x.biasedExponent == 2047 && x.fraction != 0

def isInfinite (x : Binary64) : Bool := x.biasedExponent == 2047 && x.fraction == 0

def isFinite (x : Binary64) : Bool := x.biasedExponent != 2047

def isZero (x : Binary64) : Bool := x.bits.toNat % Nat.pow 2 63 == 0

/-- The magnitude of a finite number as `m · 2^q`. -/
def significand (x : Binary64) : Nat × Int :=
  if x.biasedExponent = 0 then (x.fraction, -1074)
  else (Nat.pow 2 52 + x.fraction, (x.biasedExponent : Int) - 1075)

/-- A sign in front of the bits of a magnitude. -/
def signed (negative : Bool) (magnitude : Nat) : Binary64 :=
  ⟨(magnitude + if negative then Nat.pow 2 63 else 0).toUInt64⟩

def zero (negative : Bool) : Binary64 := signed negative 0

def infinity (negative : Bool) : Binary64 := signed negative (2047 * Nat.pow 2 52)

def nan : Binary64 := signed false (2047 * Nat.pow 2 52 + Nat.pow 2 51)

/-- `num / den` to the nearest whole number, a half going to the even one. -/
def roundHalfEven (num den : Nat) : Nat :=
  let q := num / den
  let r := num % den
  if 2 * r < den then q
  else if 2 * r = den then q + q % 2
  else q + 1

/-- `num / den` in units of `2^q`, as a fraction. -/
def scaled (num den : Nat) (q : Int) : Nat × Nat :=
  if q ≥ 0 then (num, den * Nat.pow 2 q.toNat) else (num * Nat.pow 2 (-q).toNat, den)

/-- The nearest number to `num / den`; beyond the largest finite one it is infinite. -/
def ofRatio (negative : Bool) (num den : Nat) : Binary64 :=
  if num = 0 then zero negative else
  let estimate : Int := (num.log2 : Int) - den.log2 - 52
  let (n, d) := scaled num den estimate
  let exact := if n / d < Nat.pow 2 52 then estimate - 1 else estimate
  let q := max exact (-1074)
  let (n, d) := scaled num den q
  let m := roundHalfEven n d
  let (m, q) := if m ≥ Nat.pow 2 53 then (m / 2, q + 1) else (m, q)
  if q > 971 then infinity negative
  else if m < Nat.pow 2 52 then signed negative m
  else signed negative ((q + 1075).toNat * Nat.pow 2 52 + (m - Nat.pow 2 52))

/-- The magnitude of a finite number as a fraction. -/
def ratio (x : Binary64) : Nat × Nat :=
  let (m, q) := x.significand
  if q ≥ 0 then (m * Nat.pow 2 q.toNat, 1) else (m, Nat.pow 2 (-q).toNat)

/-- The nearest number to `digits · 10^exponent`. Far exponents are settled by their size. -/
def ofDecimal (negative : Bool) (digits : Nat) (exponent : Int) : Binary64 :=
  if digits = 0 then zero negative else
  let top : Int := (Nat.toDigits 10 digits).length + exponent
  if top > 400 then infinity negative
  else if top < -400 then zero negative
  else if exponent ≥ 0 then ofRatio negative (digits * Nat.pow 10 exponent.toNat) 1
  else ofRatio negative digits (Nat.pow 10 (-exponent).toNat)

/-- Equality of values: the two zeros are equal, and all that is not a number is one value. -/
def sameValue (x y : Binary64) : Bool :=
  (x.isNaN && y.isNaN) || (x.isZero && y.isZero) || x.bits == y.bits

end Binary64

end Pipeworks
