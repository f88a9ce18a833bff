namespace TraceIndex

/-- A clock that moves when it is told to, in milliseconds since 1970. -/
structure Clock where
  millis : Int64
  deriving DecidableEq, Repr

namespace Clock

/-- Moves on, or back for as much as does not fit a signed number. -/
def advance (c : Clock) (millis : UInt64) : Clock := ⟨c.millis + millis.toInt64⟩

def advanceMicros (c : Clock) (micros : UInt64) : Clock := c.advance (micros / 1000)

end Clock

end TraceIndex
