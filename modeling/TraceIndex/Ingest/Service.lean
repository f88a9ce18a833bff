import TraceIndex.Ingest.Batch
import TraceIndex.Settings.Document

namespace TraceIndex

structure Metrics where
  spansAccepted : Nat := 0
  batchesFailed : Nat := 0
  writesDispatched : Nat := 0
  writesFailed : Nat := 0
  writesRejected : Nat := 0
  dimensionWritesSkipped : Nat := 0
  deriving DecidableEq, Repr

/-- An open service: what was fixed when it was opened, the store, the clock, and the state of
the workers and of the batches they accepted. An ephemeral service made its store itself, and
loses it when it ends. Statements for tables in `gate` are held back, the oldest first, until they
are released. -/
structure Service where
  isEphemeral : Bool
  settings : Settings
  schema : Schema
  writer : Writer
  gate : List Table
  store : Keyspace
  held : List (Nat × Statement)
  issued : Nat
  clock : Clock
  buckets : RandomBuckets
  hasWarned : Bool
  metrics : Metrics
  notices : List Notice
  workers : List Marks
  batches : List Batch

namespace Service

def notify (s : Service) (notices : List Notice) : Service :=
  { s with notices := s.notices ++ notices }

def addWorker (s : Service) : Service :=
  { s with workers := s.workers ++ [.fresh s.settings.dedupMillis s.clock] }

def setMarks (s : Service) (worker : Nat) (marks : Marks) : Service :=
  { s with workers := s.workers.set worker marks }

def revert (s : Service) (worker : Nat) (keys : List String) : Service :=
  { s with workers := s.workers.modify worker fun m => keys.foldl Marks.revert m }

/-- The notice that a span without a time gives, once in a service whose store compacts by
time. -/
def warnings (s : Service) (spans : List Span) : List Notice :=
  if s.schema.isTimeWindowed && !s.hasWarned then
    match spans.find? (·.storedTime = 0) with
    | some span => [.untimedSpan span.traceId span.id s.schema.compaction]
    | none => []
  else []

def send (s : Service) (statement : Statement) : Option (Except StoreFailure Unit) × Service :=
  if statement.table ∈ s.gate then
    (none, { s with held := s.held ++ [(s.issued, statement)] })
  else
    let (reply, store) := s.store.execute statement
    (some reply, { s with store })

def countAttempt (m : Metrics) (a : Attempt) : Metrics :=
  match a.statement with
  | .ok _ => { m with writesDispatched := m.writesDispatched + 1 }
  | .error _ => { m with writesRejected := m.writesRejected + 1 }

def launch (s : Service) (a : Attempt) : Flight × Service :=
  let s := { s with metrics := countAttempt s.metrics a }
  let (reply, s) := match a.statement with
    | .ok statement => s.send statement
    | .error _ => (none, s)
  (⟨s.issued, a, reply⟩, { s with issued := s.issued + 1 })

def launchAll : List Attempt → Service → List Flight × Service
  | [], s => ([], s)
  | a :: rest, s =>
    let (flight, s) := s.launch a
    let (flights, s) := launchAll rest s
    (flight :: flights, s)

/-- Accepts spans for a worker: every write that they call for is started, and their batch joins
the others. This is one call that waits for nothing. It is taken as one step: each key is looked up
under the same reading of the clock, and no other worker and no look at a batch comes between. -/
def accept (s : Service) (worker : Nat) (spans : List Span) : Service :=
  match s.workers[worker]? with
  | none => s
  | some marks =>
    let spans := spans.map Span.normalize
    let warnings := s.warnings spans
    let (attempts, desk) :=
      Desk.attempts s.writer s.clock (spans.flatMap Span.entries) ⟨marks, s.buckets⟩
    let s := { s.notify warnings with
      hasWarned := s.hasWarned || !warnings.isEmpty
      buckets := desk.buckets
      metrics := { s.metrics with
        spansAccepted := s.metrics.spansAccepted + spans.length
        dimensionWritesSkipped := s.metrics.dimensionWritesSkipped + attempts.countP Option.isNone } }
    let (flights, s) := launchAll (attempts.filterMap id) (s.setMarks worker desk.marks)
    { s with batches := s.batches ++ [.ofFlights worker flights] }

def learn (s : Service) (f : Flight) : Service :=
  match f.storeFailure? with
  | some (statement, failure) =>
    { s.notify [.writeFailed statement failure] with
      metrics := { s.metrics with writesFailed := s.metrics.writesFailed + 1 } }
  | none => s

def settleMark (s : Service) (worker : Nat) (f : Flight) (outcome : Except Failure Unit) :
    Service :=
  match outcome with
  | .ok () => s
  | .error _ => s.revert worker f.attempt.mark.toList

def setBatch (s : Service) (i : Nat) (b : Batch) : Service :=
  { s with batches := s.batches.set i b }

/-- Counts a batch that fails now and had not failed before. -/
def countBatch (s : Service) (before after : Batch) : Service :=
  if before.failsBy after then
    { s with metrics := { s.metrics with batchesFailed := s.metrics.batchesFailed + 1 } }
  else s

def observe (i : Nat) (s : Service) : Service :=
  match s.batches[i]? with
  | none => s
  | some b =>
    let b := b.scan
    match b.look? with
    | none => s.setBatch i b
    | some (f, outcome, after) =>
      (((s.learn f).settleMark b.worker f outcome).countBatch b after).setBatch i after

def readyCount (s : Service) (i : Nat) : Nat := (s.batches[i]?.map (·.ready.length)).getD 0

def settle (i : Nat) (s : Service) : Service := Nat.repeat (observe i) (s.readyCount i) s

def forget (s : Service) (i : Nat) (b : Batch) : Service :=
  (s.revert b.worker b.marks).setBatch i b.forget

/-- Gives a pending batch up: nobody looks at its writes any more, and their marks are given
back. A batch that is done stays as it is. -/
def drop (s : Service) (i : Nat) : Service :=
  match s.batches[i]? with
  | none => s
  | some b => if b.isPending then s.forget i { b with isDropped := true } else s

def hasFailed (s : Service) (i : Nat) : Bool := (s.batches[i]?.bind (·.failure)).isSome

/-- Looks at so many writes of a batch, and at none after the first failure. -/
def observeUntilFailure (i : Nat) : Nat → Service → Service
  | 0, s => s
  | n + 1, s => if s.hasFailed i then s else observeUntilFailure i n (s.observe i)

/-- Looks at a batch once with nothing to look at it later: what is outstanding after a failure,
or while the batch is pending, is given up. -/
def settleAlone (i : Nat) (s : Service) : Service :=
  let s := observeUntilFailure i (s.readyCount i) s
  match s.batches[i]? with
  | none => s
  | some b =>
    if b.failure.isSome then
      if b.outstanding.isEmpty then s
      else (s.notify [.undrained b.outstanding.length]).forget i b
    else s.drop i

/-- Writes one entry that belongs to no span. The outcome is missing while the statement is held
back. -/
def write (s : Service) (e : Entry) : Option (Except Failure Unit) × Service :=
  let (statement, buckets) := s.writer.statement e s.buckets
  let (flight, s) := { s with buckets }.launch ⟨statement, none⟩
  match flight.outcome? with
  | none => (none, s)
  | some outcome => (some outcome, s.learn flight)

def decodeMessage (s : Service) (bytes : Bytes) : Except Failure (List Span) :=
  s.writer.codec.decodeList bytes

def batchState? (s : Service) (i : Nat) : Option BatchState := s.batches[i]?.map (·.state)

end Service

end TraceIndex
