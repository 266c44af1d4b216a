/-
JSON as it is read: the tree of a text up to the place where it stops being JSON. Data before that
place can be looked at as if the rest were well-formed, so a fault in the data that comes first is
found first.
-/
import Pipeworks.Decimal.Binary64

namespace Pipeworks.Json

/-- A number as written. -/
structure Numeral where
  negative : Bool
  whole : List Char
  fraction : List Char
  exponent : Option (Bool × List Char)
  deriving DecidableEq

inductive Node where
  | null
  | bool (b : Bool)
  | number (n : Numeral)
  /-- A string; none if its escapes or bytes are no text. -/
  | string (s : Option String)
  | array (items : List Node) (closed : Bool)
  | object (members : List (Option String × Node)) (closed : Bool)
  /-- The place where the text stops being JSON. -/
  | broken

/-! ## Numbers -/

/-- What a number stands for. -/
inductive Quantity where
  | whole (n : Int)
  | real (x : Binary64)

def digitValue (c : Char) : Nat := c.toNat - 48

/-- The largest significand that is kept. -/
def maxSignificand : Nat := Nat.pow 2 64 - 1

/-- Appends digits while the significand stays in range; counts those that did not fit. -/
def takeWhole (significand : Nat) : List Char → Nat × Nat
  | [] => (significand, 0)
  | c :: rest =>
    let next := significand * 10 + digitValue c
    if next > maxSignificand then (significand, (c :: rest).length)
    else takeWhole next rest

/-- Appends digits of a fraction while the significand stays in range; counts those that did. -/
def takeFraction (significand used : Nat) : List Char → Nat × Nat
  | [] => (significand, used)
  | c :: rest =>
    let next := significand * 10 + digitValue c
    if next > maxSignificand then (significand, used)
    else takeFraction next (used + 1) rest

def product (x y : Nat × Nat) : Binary64 := Binary64.ofRatio false (x.1 * y.1) (x.2 * y.2)

def quotient (x y : Nat × Nat) : Binary64 := Binary64.ofRatio false (x.1 * y.2) (x.2 * y.1)

def powerOfTen (n : Nat) : Nat × Nat := (Binary64.ofRatio false (Nat.pow 10 n) 1).ratio

/-- Scales by a power of ten with one rounding for each factor; none if the result is too large. -/
def scaleByTen (x : Binary64) (exponent : Int) : Nat → Option Binary64
  | 0 => some x
  | fuel + 1 =>
    if exponent.natAbs ≤ 308 then
      let y := if exponent ≥ 0 then product x.ratio (powerOfTen exponent.natAbs)
        else quotient x.ratio (powerOfTen exponent.natAbs)
      if y.isFinite then some y else none
    else if x.isZero then some x
    else if exponent ≥ 0 then none
    else scaleByTen (quotient x.ratio (powerOfTen 308)) (exponent + 308) fuel

def natOfDigits (ds : List Char) : Nat := ds.foldl (fun n c => n * 10 + digitValue c) 0

/-- The number nearest to what the significand and exponent say; none if it is too large. -/
def Numeral.real? (n : Numeral) : Option Binary64 :=
  let (significand, dropped) := takeWhole 0 n.whole
  let (significand, used) := takeFraction significand 0 n.fraction
  let base : Int := (dropped : Int) - used
  let written : Int := match n.exponent with
    | none => 0
    | some (negative, ds) => if negative then -(natOfDigits ds : Int) else natOfDigits ds
  let exponent := max (-(Nat.pow 2 31 : Int)) (min (Nat.pow 2 31 : Int) (base + written))
  let x := Binary64.ofRatio false significand 1
  let scaled :=
    if exponent < -700 then some (Binary64.zero false)
    else scaleByTen x exponent 4
  scaled.map fun y => Binary64.signed n.negative (y.bits.toNat % Nat.pow 2 63)

/-- A number without fraction and exponent is whole if it fits into 64 bits and is not a negative
zero. -/
def Numeral.quantity? (n : Numeral) : Option Quantity :=
  let v := natOfDigits n.whole
  if n.fraction.isEmpty && n.exponent.isNone then
    if n.negative then
      if 0 < v ∧ v ≤ Nat.pow 2 63 then some (.whole (-(v : Int))) else n.real?.map .real
    else if v < Nat.pow 2 64 then some (.whole v) else n.real?.map .real
  else n.real?.map .real

/-! ## Soundness -/

mutual

/-- Whether the text of the node is JSON to its end. -/
def Node.sound : Node → Bool
  | .array items closed => closed && soundItems items
  | .object members closed => closed && soundMembers members
  | .broken => false
  | _ => true

def soundItems : List Node → Bool
  | [] => true
  | n :: ns => n.sound && soundItems ns

def soundMembers : List (Option String × Node) → Bool
  | [] => true
  | (_, n) :: ms => n.sound && soundMembers ms

end

mutual

/-- Whether the node can be kept for later: sound, of text and numbers in range, and nested at most
`depth` deep. -/
def Node.keepable : Nat → Node → Bool
  | _, .string s => s.isSome
  | _, .number n => n.quantity?.isSome
  | depth, .array items closed =>
    match depth with
    | 0 => false
    | d + 1 => closed && keepableItems d items
  | depth, .object members closed =>
    match depth with
    | 0 => false
    | d + 1 => closed && keepableMembers d members
  | _, .broken => false
  | _, _ => true

def keepableItems : Nat → List Node → Bool
  | _, [] => true
  | d, n :: ns => n.keepable d && keepableItems d ns

def keepableMembers : Nat → List (Option String × Node) → Bool
  | _, [] => true
  | d, (k, n) :: ms => k.isSome && n.keepable d && keepableMembers d ms

end

end Pipeworks.Json
