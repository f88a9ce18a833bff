import TraceIndex.Bucket
import TraceIndex.Codec
import TraceIndex.Ingest.Entry
import TraceIndex.Store.Expiry
import TraceIndex.Store.Statement

namespace TraceIndex

/-- How entries are bound to statements. Annotation keys of more than `keyLimit` bytes are not
indexed. -/
structure Writer where
  expiry : ExpiryPolicy
  durations : DurationBuckets
  codec : Codec
  keyLimit : UInt64

namespace Writer

def statementName : Table → String
  | .traces => "insert-span"
  | .serviceNames => "insert-service-name"
  | .spanNames => "insert-span-name"
  | .byService => "insert-trace-id-by-service-name"
  | .bySpanName => "insert-trace-id-by-span-name"
  | .byAnnotationKey => "insert-trace-id-by-annotation"
  | .byDuration => "insert-trace-id-by-duration"

def insert (w : Writer) (t : Table) : Insert := ⟨statementName t, t, (w.expiry.get t).binds⟩

def bound (w : Writer) (t : Table) (cells : List (String × Cell)) : Statement :=
  ⟨w.insert t, cells, (w.expiry.get t).bound?⟩

def traceId (n : UInt64) : String × Cell := ("trace_id", .bigint n.toInt64)

def time (t : Int64) : String × Cell := ("ts", .timestamp ⟨t⟩)

def spanNameBucket : Int32 := 0

def required (field value : String) : Except Failure Unit :=
  if value.isEmpty then .error (.validation (field ++ " must not be empty")) else .ok ()

def isSpread : Entry → Bool
  | .byService .. | .byAnnotationKey .. => true
  | _ => false

def cells (w : Writer) : Entry → Except Failure (Int32 → List (String × Cell))
  | .trace span t key => do
    let bytes ← w.codec.encode span
    return fun _ =>
      [traceId span.traceId, time t, ("span_name", .text key), ("span", .blob bytes)]
  | .serviceName service => do
    required "service_name" service
    return fun _ => [("service_name", .text service)]
  | .spanName service name => do
    required "service_name" service
    required "span_name" name
    return fun _ =>
      [("service_name", .text service), ("bucket", .int spanNameBucket), ("span_name", .text name)]
  | .byService service t id => do
    required "service_name" service
    return fun bucket =>
      [("service_name", .text service), ("bucket", .int bucket), time t, traceId id]
  | .bySpanName service name t id => do
    required "service_name" service
    required "span_name" name
    return fun _ => [("service_span_name", .text (service ++ "." ++ name)), time t, traceId id]
  | .byAnnotationKey key t id => do
    let bytes := Utf8.encode key
    if w.keyLimit.toNat < bytes.length then
      throw (.valueTooLarge bytes.length w.keyLimit.toNat)
    return fun bucket =>
      [("annotation", .blob bytes), ("bucket", .int bucket), time t, traceId id]
  | .byDuration service name t duration id => do
    required "service_name" service
    return fun _ =>
      [("service_name", .text service), ("span_name", .text name),
        ("bucket", .int (w.durations.bucket t)), ("duration", .bigint duration), time t,
        traceId id]

/-- The statement of an entry, or why there is none. Only a statement that is sent to a random
bucket draws one. -/
def statement (w : Writer) (e : Entry) (buckets : RandomBuckets) :
    Except Failure Statement × RandomBuckets :=
  match w.cells e with
  | .error f => (.error f, buckets)
  | .ok cells =>
    if isSpread e then
      let (bucket, buckets) := buckets.draw
      (.ok (w.bound e.table (cells bucket)), buckets)
    else (.ok (w.bound e.table (cells 0)), buckets)

end Writer

end TraceIndex
