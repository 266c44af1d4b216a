/-
Lengths of time in nanoseconds, up to the longest one that can be counted, and their short text.
-/
namespace Pipeworks.Time

structure Span where
  nanos : Nat
  deriving DecidableEq, Repr

namespace Span

/-- The longest span: one nanosecond short of 2⁶⁴ seconds. -/
def max : Span := ⟨Nat.pow 2 64 * 1000000000 - 1⟩

def ofSeconds (n : Nat) : Span := ⟨n * 1000000000⟩

def ofMillis (n : Nat) : Span := ⟨n * 1000000⟩

def seconds (s : Span) : Nat := s.nanos / 1000000000

def subsecond (s : Span) : Nat := s.nanos % 1000000000

/-- Twice the span, unless that is longer than the longest. -/
def double? (s : Span) : Option Span :=
  if 2 * s.nanos ≤ max.nanos then some ⟨2 * s.nanos⟩ else none

/-- A count of units and the digits of the rest, without zeros at the end. -/
def decimal (whole rest width : Nat) : String :=
  let ds := Nat.toDigits 10 rest
  let padded := List.replicate (width - ds.length) '0' ++ ds
  let digits := (padded.reverse.dropWhile (· == '0')).reverse
  toString whole ++ if digits.isEmpty then "" else "." ++ String.ofList digits

/-- The span in the largest unit of which it has at least one. -/
def text (s : Span) : String :=
  if s.nanos ≥ 1000000000 then decimal s.seconds s.subsecond 9 ++ "s"
  else if s.nanos ≥ 1000000 then decimal (s.nanos / 1000000) (s.nanos % 1000000) 6 ++ "ms"
  else if s.nanos ≥ 1000 then decimal (s.nanos / 1000) (s.nanos % 1000) 3 ++ "µs"
  else toString s.nanos ++ "ns"

end Span

end Pipeworks.Time
