import TraceIndex.Ingest.Turns

namespace TraceIndex

namespace Service

def batchOf? (s : Service) (ticket : Nat) : Option Nat := s.batches.findIdx? (·.holds ticket)

def deliver (s : Service) (ticket : Nat) (reply : Except StoreFailure Unit) : Service :=
  { s with batches := s.batches.map (·.reply ticket reply) }

/-- What becomes of held-back statements: they reach the store, or are lost on the way. -/
inductive Fate
  | released
  | abandoned
  deriving DecidableEq, Repr

def lost : StoreFailure := .unavailable "write task dropped"

def resolve (fate : Fate) (s : Service) (h : Nat × Statement) : Service :=
  match fate with
  | .released =>
    let (reply, store) := s.store.execute h.2
    { s with store }.deliver h.1 reply
  | .abandoned => s.deliver h.1 (.error lost)

/-- Resolves some of the held-back statements, in the order given, and then lets their batches
look at the replies, in the order in which they got their first. -/
def resolveAll (s : Service) (fate : Fate) (chosen : List (Nat × Statement)) : Service :=
  let concerned := (chosen.filterMap fun h => s.batchOf? h.1).eraseDups
  let s := { s with held := s.held.filter fun h => h.1 ∉ chosen.map (·.1) }
  (chosen.foldl (resolve fate) s).settleAll concerned

def resolveAt (s : Service) (fate : Fate) (i : Nat) : Service :=
  s.resolveAll fate (s.held[i]?.toList)

end Service

end TraceIndex
