namespace TraceIndex

/-- A day of the calendar in which leap years recur every 400 years, before its introduction
too. -/
structure Day where
  year : Int
  month : Nat
  day : Nat
  deriving DecidableEq, Repr

namespace Day

def isLeap (year : Int) : Bool := year % 4 == 0 && (year % 100 != 0 || year % 400 == 0)

def monthLengths (leap : Bool) : List Nat :=
  [31, if leap then 29 else 28, 31, 30, 31, 30, 31, 31, 30, 31, 30, 31]

/-- The month, counted on from the given one, and the day of the month, both from one. -/
def inMonth (month : Nat) : List Nat → Nat → Nat × Nat
  | [], n => (month, n + 1)
  | length :: rest, n => if n < length then (month, n + 1) else inMonth (month + 1) rest (n - length)

/-- The year of a cycle of 400 years, and the day of that year, both from zero. -/
def inCycle (n : Nat) : Nat × Nat :=
  let century := min (n / 36524) 3
  let n := n - century * 36524
  let fourth := n / 1461
  let n := n % 1461
  let year := min (n / 365) 3
  (century * 100 + fourth * 4 + year, n - year * 365)

def ofCount (n : Int) : Day :=
  let cycle := n / 146097
  let (yearOfCycle, dayOfYear) := inCycle (n % 146097).toNat
  let year := cycle * 400 + yearOfCycle + 1
  let (month, day) := inMonth 1 (monthLengths (isLeap year)) dayOfYear
  ⟨year, month, day⟩

def epoch : Int := 719162

end Day

end TraceIndex
