import TraceIndex.Ingest.Attempt
import TraceIndex.Ingest.Notice

namespace TraceIndex

/-- An attempt whose outcome nobody has looked at yet, with the store's reply once there is
one. -/
structure Flight where
  ticket : Nat
  attempt : Attempt
  reply : Option (Except StoreFailure Unit)

namespace Flight

def failureOf (s : Statement) (f : StoreFailure) : Failure :=
  .dispatch s.render f.text f.isTransient

def outcome? (f : Flight) : Option (Except Failure Unit) :=
  match f.attempt.statement with
  | .error failure => some (.error failure)
  | .ok s => f.reply.map fun r => r.mapError (failureOf s)

def isKnown (f : Flight) : Bool := f.outcome?.isSome

def storeFailure? (f : Flight) : Option (Statement × StoreFailure) :=
  match f.attempt.statement, f.reply with
  | .ok s, some (.error failure) => some (s, failure)
  | _, _ => none

end Flight

/-- The writes of one accepted list of spans that are still to be looked at. Those in `ready` are
looked at next, in order; those in `waiting` had no reply when they were looked at. After the
first failure the others are looked at all the same. -/
structure Batch where
  worker : Nat
  size : Nat
  ready : List Flight
  waiting : List Flight
  failure : Option Failure
  isDropped : Bool

inductive BatchState
  | pending
  | done (outcome : Except Failure Unit)
  | dropped

namespace Batch

def ofFlights (worker : Nat) (flights : List Flight) : Batch where
  worker
  size := flights.length
  ready := flights
  waiting := []
  failure := none
  isDropped := false

/-- The batch succeeds once every write has, and fails with the first failure seen. -/
def state (b : Batch) : BatchState :=
  match b.failure with
  | some first => .done (.error (.batch b.size first))
  | none =>
    if b.isDropped then .dropped
    else if b.ready.isEmpty && b.waiting.isEmpty then .done (.ok ())
    else .pending

def failsBy (b later : Batch) : Bool := b.failure.isNone && later.failure.isSome

def isPending (b : Batch) : Bool :=
  match b.state with
  | .pending => true
  | _ => false

/-- Looks past the writes that have no reply, up to the first that has one. -/
def scan (b : Batch) : Batch :=
  { b with
    ready := b.ready.dropWhile (!·.isKnown)
    waiting := b.waiting ++ b.ready.takeWhile (!·.isKnown) }

def look? (b : Batch) : Option (Flight × Except Failure Unit × Batch) :=
  match b.ready with
  | [] => none
  | f :: rest =>
    match f.outcome? with
    | none => none
    | some (.ok ()) => some (f, .ok (), { b with ready := rest })
    | some (.error failure) =>
      some (f, .error failure, { b with ready := rest, failure := b.failure <|> some failure })

def answer (ticket : Nat) (reply : Except StoreFailure Unit) (f : Flight) : Flight :=
  if f.ticket = ticket then { f with reply := some reply } else f

/-- The reply to a write. One that was waiting is looked at after those that are ready. -/
def reply (b : Batch) (ticket : Nat) (r : Except StoreFailure Unit) : Batch :=
  { b with
    ready := b.ready.map (answer ticket r) ++
      (b.waiting.filter (·.ticket = ticket)).map (answer ticket r)
    waiting := b.waiting.filter (·.ticket ≠ ticket) }

def holds (b : Batch) (ticket : Nat) : Bool := (b.ready ++ b.waiting).any (·.ticket = ticket)

def outstanding (b : Batch) : List Flight := b.ready ++ b.waiting

/-- The marks that writes nobody will look at leave behind. -/
def marks (b : Batch) : List String := b.outstanding.filterMap (·.attempt.mark)

def forget (b : Batch) : Batch := { b with ready := [], waiting := [] }

end Batch

end TraceIndex
