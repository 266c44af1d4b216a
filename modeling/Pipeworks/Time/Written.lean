/-
The written form of an instant: `YYYY-MM-DDTHH:MM:SS`, a fraction of 0, 3, 6 or 9 digits and `Z`.
A leap second is written as second 60; years outside four digits carry a sign.
-/
import Pipeworks.Time.Instant

namespace Pipeworks.Time

/-- Decimal digits, with zeros in front up to `width`. -/
def padded (width n : Nat) : List Char :=
  let ds := Nat.toDigits 10 n
  List.replicate (width - ds.length) '0' ++ ds

def writtenYear (y : Int) : List Char :=
  if 0 ≤ y ∧ y ≤ 9999 then padded 4 y.toNat
  else (if y < 0 then '-' else '+') :: padded 4 y.natAbs

/-- The fewest of 0, 3, 6 and 9 digits that are exact. -/
def writtenFraction (nanos : Nat) : List Char :=
  if nanos = 0 then []
  else if nanos % 1000000 = 0 then '.' :: padded 3 (nanos / 1000000)
  else if nanos % 1000 = 0 then '.' :: padded 6 (nanos / 1000)
  else '.' :: padded 9 nanos

def writtenDate (d : Date) : List Char :=
  writtenYear d.year ++ '-' :: padded 2 d.month ++ '-' :: padded 2 d.day

def Reading.chars (t : Reading) : List Char :=
  let leap := nanosPerSecond ≤ t.nanos
  let second := t.second % 60 + if leap then 1 else 0
  let nanos := if leap then t.nanos - nanosPerSecond else t.nanos
  writtenDate t.date ++ 'T' :: padded 2 (t.second / 3600) ++ ':' :: padded 2 (t.second / 60 % 60) ++
    ':' :: padded 2 second ++ writtenFraction nanos ++ ['Z']

def Instant.text (t : Instant) : String := String.ofList t.reading.chars

/-- The form with six digits after the second, as a database keeps it. -/
def Reading.microText (t : Reading) : String :=
  String.ofList <| writtenDate t.date ++ 'T' :: padded 2 (t.second / 3600) ++
    ':' :: padded 2 (t.second / 60 % 60) ++ ':' :: padded 2 (t.second % 60) ++
    '.' :: padded 6 (t.nanos / 1000) ++ ['Z']

/-- The instant as a database keeps it. -/
def Instant.microText (t : Instant) : String :=
  (Reading.ofMicrosSince2000 t.reading.microsSince2000).microText

end Pipeworks.Time
