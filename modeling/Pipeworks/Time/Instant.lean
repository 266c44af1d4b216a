/-
Points in time, in UTC: a calendar date, the second of its day and the nanosecond of that second.
A leap second is the second before it with a thousand million nanoseconds or more.
-/
namespace Pipeworks.Time

/-! ## Dates -/

/-- A date of the Gregorian calendar, extended to all years. -/
structure Date where
  year : Int
  month : Nat
  day : Nat
  deriving DecidableEq, Repr

def isLeapYear (y : Int) : Bool := y % 4 == 0 && (y % 100 != 0 || y % 400 == 0)

def daysInMonth (y : Int) (m : Nat) : Nat :=
  if m = 2 then (if isLeapYear y then 29 else 28)
  else if m = 4 ∨ m = 6 ∨ m = 9 ∨ m = 11 then 30
  else 31

def minYear : Int := -262143

def maxYear : Int := 262142

/-- A day that exists, in a year that can be counted. -/
def Date.Valid (d : Date) : Prop :=
  minYear ≤ d.year ∧ d.year ≤ maxYear ∧ 1 ≤ d.month ∧ d.month ≤ 12 ∧ 1 ≤ d.day ∧
    d.day ≤ daysInMonth d.year d.month

instance (d : Date) : Decidable d.Valid := by unfold Date.Valid; infer_instance

/-- The day after, unless it was the last one. -/
def Date.next? (d : Date) : Option Date :=
  if d.day < daysInMonth d.year d.month then some { d with day := d.day + 1 }
  else if d.month < 12 then some { d with month := d.month + 1, day := 1 }
  else if d.year < maxYear then some ⟨d.year + 1, 1, 1⟩
  else none

/-- The day before, unless it was the first one. -/
def Date.previous? (d : Date) : Option Date :=
  if 1 < d.day then some { d with day := d.day - 1 }
  else if 1 < d.month then some { d with month := d.month - 1, day := daysInMonth d.year (d.month - 1) }
  else if minYear < d.year then some ⟨d.year - 1, 12, 31⟩
  else none

def daysBeforeYear (y : Int) : Int :=
  let p := y - 1
  p * 365 + p / 4 - p / 100 + p / 400

def daysBeforeMonth (y : Int) (m : Nat) : Nat :=
  (List.range (m - 1)).foldl (fun days i => days + daysInMonth y (i + 1)) 0

/-- Days since the first day of the year 1. -/
def Date.number (d : Date) : Int :=
  daysBeforeYear d.year + daysBeforeMonth d.year d.month + ((d.day : Int) - 1)

/-- The month and day of the day `n` of year `y`, counted from 0. -/
def monthAndDay (y : Int) : Nat → Nat → Nat → Nat × Nat
  | 0, m, n => (m, n + 1)
  | left + 1, m, n =>
    if n < daysInMonth y m then (m, n + 1) else monthAndDay y left (m + 1) (n - daysInMonth y m)

/-- The date with the given number. -/
def Date.ofNumber (n : Int) : Date :=
  let guess := n * 400 / 146097 + 1
  let y := if daysBeforeYear (guess + 1) ≤ n then guess + 1
    else if n < daysBeforeYear guess then guess - 1
    else guess
  let (m, d) := monthAndDay y 11 1 (n - daysBeforeYear y).toNat
  ⟨y, m, d⟩

/-! ## Readings of a clock -/

/-- A date, a second of it and a nanosecond of that. -/
structure Reading where
  date : Date
  second : Nat
  nanos : Nat
  deriving DecidableEq, Repr

def nanosPerSecond : Nat := 1000000000

/-- The day is a real day, and a leap second ends a minute. -/
def Reading.Valid (t : Reading) : Prop :=
  t.date.Valid ∧ t.second < 86400 ∧
    (t.nanos < nanosPerSecond ∨ (t.nanos < 2 * nanosPerSecond ∧ t.second % 60 = 59))

instance (t : Reading) : Decidable t.Valid := by unfold Reading.Valid; infer_instance

/-- The order of two readings; the one in the leap second is later than those before it. -/
def Reading.compare (a b : Reading) : Ordering :=
  (Ord.compare a.date.year b.date.year).then <|
  (Ord.compare a.date.month b.date.month).then <|
  (Ord.compare a.date.day b.date.day).then <|
  (Ord.compare a.second b.second).then (Ord.compare a.nanos b.nanos)

/-- The reading `offset` seconds before the local one, for less than a day. -/
def Reading.minusOffset (t : Reading) (offset : Int) : Option Reading :=
  let s := (t.second : Int) - offset
  if s < 0 then t.date.previous?.map (⟨·, (s + 86400).toNat, t.nanos⟩)
  else if s ≥ 86400 then t.date.next?.map (⟨·, (s - 86400).toNat, t.nanos⟩)
  else some { t with second := s.toNat }

/-- Nanoseconds from the start of 2000; a leap second counts as the second after it. -/
def Reading.nanosSince2000 (t : Reading) : Int :=
  ((t.date.number - Date.number ⟨2000, 1, 1⟩) * 86400 + t.second) * nanosPerSecond + t.nanos

/-- Microseconds from the start of 2000, cut towards it. -/
def Reading.microsSince2000 (t : Reading) : Int := t.nanosSince2000.tdiv 1000

/-- The reading so many microseconds from the start of 2000. -/
def Reading.ofMicrosSince2000 (n : Int) : Reading :=
  let seconds := n / 1000000
  let days := seconds / 86400
  ⟨Date.ofNumber (days + Date.number ⟨2000, 1, 1⟩), (seconds % 86400).toNat,
    (n % 1000000).toNat * 1000⟩

/-! ## Instants -/

/-- A point in time. -/
structure Instant where
  reading : Reading
  valid : reading.Valid
  deriving DecidableEq

/-- Whether `a` is `b` or earlier. -/
def Instant.notAfter (a b : Instant) : Bool := a.reading.compare b.reading != .gt

end Pipeworks.Time
