import TraceIndex.Text.Decimal
import TraceIndex.Time.Calendar

namespace TraceIndex.Iso

open Text

/-- Four digits; years that do not fit them carry a sign. -/
def year (y : Int) : String :=
  if 0 ≤ y ∧ y ≤ 9999 then padded 4 y.toNat
  else (if y < 0 then "-" else "+") ++ padded 4 y.natAbs

def microsPerDay : Int := 86400000000

def firstYear : Int := -262143
def lastYear : Int := 262142

def date (d : Day) : String := year d.year ++ "-" ++ padded 2 d.month ++ "-" ++ padded 2 d.day

def timeOfDay (micros : Nat) : String :=
  let seconds := micros / 1000000
  padded 2 (seconds / 3600) ++ ":" ++ padded 2 (seconds / 60 % 60) ++ ":" ++
    padded 2 (seconds % 60) ++ "." ++ padded 6 (micros % 1000000)

/-- An instant, in microseconds since 1970, as a date and time of day in universal time. Instants
outside the years that dates are written for are written as the number. -/
def instant (micros : Int) : String :=
  let d := Day.ofCount (micros / microsPerDay + Day.epoch)
  if firstYear ≤ d.year ∧ d.year ≤ lastYear then
    date d ++ "T" ++ timeOfDay (micros % microsPerDay).toNat ++ "Z"
  else decimal micros

end TraceIndex.Iso
