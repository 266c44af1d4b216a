/-
Names with other characters than ASCII, written in ASCII: the differences between the code points in
ascending order, as numbers of variable length.
-/
import Pipeworks.Text.Utf8

namespace Pipeworks.Url.Punycode

def digitChar (d : Nat) : Char := if d < 26 then Char.ofNat (97 + d) else Char.ofNat (22 + d)

def digit? (c : Char) : Option Nat :=
  let n := c.toNat
  if 97 ≤ n ∧ n ≤ 122 then some (n - 97)
  else if 65 ≤ n ∧ n ≤ 90 then some (n - 65)
  else if 48 ≤ n ∧ n ≤ 57 then some (n - 22)
  else none

def threshold (k bias : Nat) : Nat :=
  if k ≤ bias then 1 else if bias + 26 ≤ k then 26 else k - bias

def shrink (delta k : Nat) : Nat × Nat :=
  if 455 < delta then shrink (delta / 35) (k + 36) else (delta, k)
termination_by delta
decreasing_by omega

/-- The bias after a difference. -/
def adapt (delta points : Nat) (first : Bool) : Nat :=
  let d := if first then delta / 700 else delta / 2
  let (d, k) := shrink (d + d / points) 0
  k + 36 * d / (d + 38)

/-! ## Writing -/

/-- The digits of a difference, for as long as there is fuel. -/
def digits (bias : Nat) : Nat → Nat → Nat → List Char
  | 0, _, _ => []
  | fuel + 1, k, q =>
    let t := threshold k bias
    if q < t then [digitChar q]
    else digitChar (t + (q - t) % (36 - t)) :: digits bias fuel (k + 36) ((q - t) / (36 - t))

structure Writer where
  out : List Char
  delta : Nat
  bias : Nat
  handled : Nat

/-- Looks at one character while the code point `n` is written. -/
def Writer.look (basic n : Nat) (w : Writer) (c : Char) : Writer :=
  if c.toNat < n then { w with delta := w.delta + 1 }
  else if c.toNat = n then
    ⟨w.out ++ digits w.bias (w.delta + 1) 36 w.delta, 0,
      adapt w.delta (w.handled + 1) (w.handled == basic), w.handled + 1⟩
  else w

/-- Writes the code points of a list in ascending order, of which `n` is the least possible. -/
def write (input : List Char) (basic : Nat) : List Nat → Nat → Writer → List Char
  | [], _, w => w.out
  | m :: ms, n, w =>
    let w := { w with delta := w.delta + (m - n) * (w.handled + 1) }
    let w := input.foldl (Writer.look basic m) w
    write input basic ms (m + 1) { w with delta := w.delta + 1 }

def encode (input : List Char) : List Char :=
  let basic := input.filter (·.toNat < 128)
  let others := ((input.filter fun c => 128 ≤ c.toNat).map Char.toNat).eraseDups.mergeSort
  let start := if basic.isEmpty then [] else basic ++ ['-']
  write input basic.length others 128 ⟨start, 0, 72, basic.length⟩

/-! ## Reading -/

/-- Reads one difference: the sum so far, the weight of the next digit and its place. -/
def readDelta (bias : Nat) (sum weight k : Nat) : List Char → Option (Nat × List Char)
  | [] => none
  | c :: cs =>
    match digit? c with
    | none => none
    | some d =>
      let t := threshold k bias
      let sum := sum + d * weight
      if d < t then some (sum, cs) else readDelta bias sum (weight * (36 - t)) (k + 36) cs

/-- Reads all differences and puts each code point in its place. -/
def read : Nat → List Char → Nat → Nat → Nat → List Char → Option (List Char)
  | 0, _, _, _, _, _ => none
  | fuel + 1, cs, n, i, bias, out =>
    if cs.isEmpty then some out else
    match readDelta bias 0 1 36 cs with
    | none => none
    | some (delta, rest) =>
      let points := out.length + 1
      let position := i + delta
      let n := n + position / points
      let place := position % points
      if n.isValidChar then
        read fuel rest n (place + 1) (adapt delta points (i == 0))
          (out.take place ++ Char.ofNat n :: out.drop place)
      else none

/-- The part before the last dash and the part behind it. -/
def splitLastDash (cs : List Char) : List Char × List Char :=
  match cs.reverse.span (· != '-') with
  | (tail, _ :: front) => (front.reverse, tail.reverse)
  | (_, []) => ([], cs)

def decode? (cs : List Char) : Option (List Char) :=
  let (basic, rest) := splitLastDash cs
  if basic.all (·.toNat < 128) then read (rest.length + 1) rest 128 0 72 basic else none

end Pipeworks.Url.Punycode
