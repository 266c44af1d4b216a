/-
The shortest decimal of a double-precision number: the fewest significant digits that read back as
the number, of those the nearest to it, and of two equally near the one with an even last digit.
-/
import Pipeworks.Decimal.Binary64

namespace Pipeworks.Decimal

/-- The decimal `0.d₁d₂… · 10^point`, without a zero at either end of its digits. -/
structure Digits where
  digits : List Nat
  point : Int
  deriving DecidableEq, Repr

/-- The decimal `c · 10^p`. -/
def Digits.of (c : Nat) (p : Int) : Digits :=
  let ds := (Nat.toDigits 10 c).map (fun d => d.toNat - 48)
  ⟨(ds.reverse.dropWhile (· == 0)).reverse, ds.length + p⟩

/-- Compares `c · 10^p` with `m · 2^q` exactly. -/
def compareScaled (c : Nat) (p : Int) (m : Nat) (q : Int) : Ordering :=
  let left := c * Nat.pow 10 p.toNat * Nat.pow 2 (-q).toNat
  let right := m * Nat.pow 2 q.toNat * Nat.pow 10 (-p).toNat
  compare left right

/-- The least `k` with `num / den < 10^k`. -/
def pointOf (num den : Nat) : Int :=
  if num ≥ den then ((Nat.toDigits 10 (num / den)).length : Int)
  else
    let l := (Nat.toDigits 10 (den / num)).length
    let k : Int := 1 - (l : Int)
    if num * Nat.pow 10 (l - 1) < den then k else k + 1

/-- The rounding interval of `m · 2^q`, in units of `2^(q-2)`. -/
def interval (m : Nat) (q : Int) : Nat × Nat :=
  (4 * m - (if m = Nat.pow 2 52 ∧ q > -1074 then 1 else 2), 4 * m + 2)

/-- Whether `c · 10^p` rounds to `m · 2^q`; the ends do so for an even significand. -/
def readsBack (m : Nat) (q : Int) (c : Nat) (p : Int) : Bool :=
  let (low, high) := interval m q
  let a := compareScaled c p low (q - 2)
  let b := compareScaled c p high (q - 2)
  (a == .gt || (a == .eq && m % 2 == 0)) && (b == .lt || (b == .eq && m % 2 == 0))

/-- On the grid of `10^p`, the neighbour of the value that reads back and is nearer. -/
def onGrid (m : Nat) (q : Int) (num den : Nat) (p : Int) : Option Nat :=
  let (n, d) :=
    if p ≥ 0 then (num, den * Nat.pow 10 p.toNat) else (num * Nat.pow 10 (-p).toNat, den)
  let c := n / d
  let r := n % d
  match readsBack m q c p, readsBack m q (c + 1) p with
  | false, false => none
  | true, false => some c
  | false, true => some (c + 1)
  | true, true =>
    if 2 * r < d then some c
    else if 2 * r = d then some (c + c % 2)
    else some (c + 1)

/-- Tries 17 less `left` significant digits, then more. -/
def search (m : Nat) (q : Int) (num den : Nat) (k : Int) : Nat → Digits
  | 0 => Digits.of 0 0
  | left + 1 =>
    let p := k - (17 - (left : Int))
    match onGrid m q num den p with
    | some c => Digits.of c p
    | none => search m q num den k left

/-- The digits of the magnitude of a finite number other than zero. -/
def shortest (x : Binary64) : Digits :=
  let (m, q) := x.significand
  let (num, den) := x.ratio
  search m q num den (pointOf num den) 17

end Pipeworks.Decimal
