import TraceIndex.Time.Clock

namespace TraceIndex

/-- The keys of the rows that were written in the current window of time and need no second
write. Keys of writes that failed wait in `reverts` until the marks are next looked at. -/
structure Marks where
  length : Nat
  length_pos : 0 < length
  window : Int
  marked : List String
  reverts : List String

namespace Marks

def serviceKey (service : String) : String := service

def separator : String := "‖"

def spanNameKey (service name : String) : String := service ++ separator ++ name

/-- Windows are at least a millisecond long, and no longer than a signed number tells. -/
def windowLength (millis : UInt64) : Nat := max 1 (min millis.toNat Int64.maxValue.toNatClampNeg)

def windowAt (length : Nat) (now : Clock) : Int := now.millis.toInt / length

def fresh (millis : UInt64) (now : Clock) : Marks where
  length := windowLength millis
  length_pos := by unfold windowLength; omega
  window := windowAt (windowLength millis) now
  marked := []
  reverts := []

/-- Forgets the reverted keys, and all keys once another window has come. -/
def refresh (m : Marks) (now : Clock) : Marks :=
  let window := windowAt m.length now
  { m with
    window
    marked := if window = m.window then m.marked.filter (· ∉ m.reverts) else []
    reverts := [] }

def mark (m : Marks) (now : Clock) (key : String) : Bool × Marks :=
  let m := m.refresh now
  if key ∈ m.marked then (false, m) else (true, { m with marked := key :: m.marked })

def unmark (m : Marks) (now : Clock) (key : String) : Marks :=
  let m := m.refresh now
  { m with marked := m.marked.erase key }

def contains (m : Marks) (now : Clock) (key : String) : Bool × Marks :=
  let m := m.refresh now
  (key ∈ m.marked, m)

def count (m : Marks) (now : Clock) : Nat × Marks :=
  let m := m.refresh now
  (m.marked.length, m)

/-- Asks for a key to be forgotten, because its write did not succeed. -/
def revert (m : Marks) (key : String) : Marks := { m with reverts := m.reverts ++ [key] }

end Marks

end TraceIndex
