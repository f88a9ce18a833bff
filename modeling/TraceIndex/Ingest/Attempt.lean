import TraceIndex.Ingest.Writer

namespace TraceIndex

/-- A write that is sent, or the reason why it is not, with the mark that it holds until it is
known to have succeeded. -/
structure Attempt where
  statement : Except Failure Statement
  mark : Option String

/-- What changes from entry to entry: the worker's marks, and the buckets that all workers
share. -/
structure Desk where
  marks : Marks
  buckets : RandomBuckets

namespace Desk

/-- The mark is set before the write is sent. An entry that is marked already is skipped. -/
def setMark (d : Desk) (now : Clock) (e : Entry) : Bool × Desk :=
  match e.mark? with
  | none => (true, d)
  | some key =>
    let (isNew, marks) := d.marks.mark now key
    (isNew, { d with marks })

def attempt (d : Desk) (w : Writer) (now : Clock) (e : Entry) : Option Attempt × Desk :=
  let (isNew, d) := d.setMark now e
  if isNew then
    let (statement, buckets) := w.statement e d.buckets
    (some ⟨statement, e.mark?⟩, { d with buckets })
  else (none, d)

def attempts (w : Writer) (now : Clock) : List Entry → Desk → List (Option Attempt) × Desk
  | [], d => ([], d)
  | e :: rest, d =>
    let (first, d) := d.attempt w now e
    let (others, d) := attempts w now rest d
    (first :: others, d)

end Desk

end TraceIndex
