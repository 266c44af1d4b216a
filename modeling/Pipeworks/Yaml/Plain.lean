/-
What a plain scalar stands for: nothing, a truth value, a number or its text.
-/
import Pipeworks.Decimal.Layout
import Pipeworks.Text.Digits

namespace Pipeworks.Yaml

inductive Number where
  | whole (n : Int)
  | real (x : Binary64)

/-- The same number; a whole one differs from a real one, and all that are no numbers are one. -/
def Number.same : Number → Number → Bool
  | .whole a, .whole b => a == b
  | .real x, .real y => x.sameValue y
  | _, _ => false

/-- A number as it is listed: whole, a decimal, or one of the three special names. -/
def Number.text : Number → String
  | .whole n => toString n
  | .real x =>
    if x.isNaN then ".nan"
    else if x.isInfinite then (if x.isNegative then "-.inf" else ".inf")
    else Decimal.compact.write x

/-- What a scalar stands for. A whole number may be too large to be a number of a document. -/
inductive Scalar where
  | null
  | bool (b : Bool)
  | number (n : Number)
  | wide (n : Int)
  | string (s : String)

/-! ## Whole numbers -/

def nullWords : List String := ["null", "Null", "NULL", "~"]

def isNullWord (s : String) : Bool := nullWords.contains s

def bool? (s : String) : Option Bool :=
  if ["true", "True", "TRUE"].contains s then some true
  else if ["false", "False", "FALSE"].contains s then some false
  else none

/-- The value of one or more digits to a base. -/
def natInBase? (base : Nat) (ds : List Char) : Option Nat :=
  let values := ds.filterMap fun c => (Hex.digit? c).filter (· < base)
  if ds.isEmpty || values.length != ds.length then none
  else some (values.foldl (fun n d => n * base + d) 0)

/-- Digits behind a sign, or alone. -/
def isPaddedDigits (cs : List Char) : Bool :=
  let ds := match cs with
    | '-' :: ds => ds
    | '+' :: ds => ds
    | ds => ds
  match ds with
  | '0' :: d :: rest => (d :: rest).all Char.isDigit
  | _ => false

/-- The digits behind the mark of a base, and the base. -/
def based? : List Char → Option (Nat × List Char)
  | '0' :: 'x' :: ds => some (16, ds)
  | '0' :: 'o' :: ds => some (8, ds)
  | '0' :: 'b' :: ds => some (2, ds)
  | _ => none

/-- A whole number without a minus sign. -/
def positive? (cs : List Char) : Option Nat :=
  let ds := match cs with
    | '+' :: ds => ds
    | ds => ds
  match based? ds with
  | some (base, ds) => natInBase? base ds
  | none => if isPaddedDigits cs then none else natInBase? 10 ds

/-- A whole number with a minus sign. -/
def negative? (cs : List Char) : Option Int :=
  match cs with
  | '-' :: ds =>
    match based? ds with
    | some (base, ds) => (natInBase? base ds).map fun n => -(n : Int)
    | none => if isPaddedDigits cs then none else (natInBase? 10 ds).map fun n => -(n : Int)
  | _ => none

/-- A whole number of up to 128 bits. -/
def whole? (cs : List Char) : Option Scalar :=
  match positive? cs with
  | some n =>
    if n < Nat.pow 2 64 then some (.number (.whole n))
    else if n < Nat.pow 2 128 then some (.wide n)
    else none
  | none =>
    match negative? cs with
    | some n =>
      if -(Nat.pow 2 63 : Int) ≤ n then some (.number (.whole n))
      else if -(Nat.pow 2 127 : Int) ≤ n then some (.wide n)
      else none
    | none => none

/-! ## Real numbers -/

/-- An exponent: a letter, a sign perhaps, and digits; or nothing. -/
def exponent? : List Char → Option Int
  | [] => some 0
  | e :: cs =>
    if e ≠ 'e' ∧ e ≠ 'E' then none else
    match cs with
    | '-' :: ds => (natInBase? 10 ds).map fun n => -(n : Int)
    | '+' :: ds => (natInBase? 10 ds).map fun n => (n : Int)
    | ds => (natInBase? 10 ds).map fun n => (n : Int)

/-- A decimal with digits before or behind the point. -/
def decimal? (negative : Bool) (cs : List Char) : Option Binary64 :=
  let whole := cs.takeWhile Char.isDigit
  let rest := cs.dropWhile Char.isDigit
  let (fraction, rest) := match rest with
    | '.' :: rest => (rest.takeWhile Char.isDigit, rest.dropWhile Char.isDigit)
    | rest => ([], rest)
  match natInBase? 10 (whole ++ fraction), exponent? rest with
  | some n, some e => some (Binary64.ofDecimal negative n (e - fraction.length))
  | _, _ => none

/-- A real number: a special name or a decimal that is not too large. -/
def real? (cs : List Char) : Option Binary64 :=
  let s := String.ofList cs
  let unsigned := match cs with
    | '+' :: rest => rest
    | cs => cs
  if [".inf", ".Inf", ".INF"].contains (String.ofList unsigned) then some (Binary64.infinity false)
  else if ["-.inf", "-.Inf", "-.INF"].contains s then some (Binary64.infinity true)
  else if [".nan", ".NaN", ".NAN"].contains s then some Binary64.nan
  else
    let x := match cs with
      | '-' :: rest => decimal? true rest
      | _ => decimal? false unsigned
    x.filter (·.isFinite)

/-! ## Plain scalars -/

def Scalar.ofPlain (cs : List Char) : Scalar :=
  let s := String.ofList cs
  if cs.isEmpty || isNullWord s then .null
  else match bool? s with
    | some b => .bool b
    | none =>
      match whole? cs with
      | some n => n
      | none =>
        match if isPaddedDigits cs then none else real? cs with
        | some x => .number (.real x)
        | none => .string s

end Pipeworks.Yaml
