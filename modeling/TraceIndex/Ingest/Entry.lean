import TraceIndex.Ingest.Marks
import TraceIndex.Span.Keys
import TraceIndex.Span.Normal
import TraceIndex.Store.Table

namespace TraceIndex

/-- What a span has written of it: itself, the names it makes known, and where it is found. -/
inductive Entry
  | trace (span : Span) (time : Int64) (key : String)
  | serviceName (service : String)
  | spanName (service name : String)
  | byService (service : String) (time : Int64) (traceId : UInt64)
  | bySpanName (service name : String) (time : Int64) (traceId : UInt64)
  | byAnnotationKey (key : String) (time : Int64) (traceId : UInt64)
  | byDuration (service name : String) (time duration : Int64) (traceId : UInt64)
  deriving DecidableEq, Repr

namespace Entry

def table : Entry → Table
  | trace .. => .traces
  | serviceName .. => .serviceNames
  | spanName .. => .spanNames
  | byService .. => .byService
  | bySpanName .. => .bySpanName
  | byAnnotationKey .. => .byAnnotationKey
  | byDuration .. => .byDuration

def mark? : Entry → Option String
  | serviceName service => some (Marks.serviceKey service)
  | spanName service name => some (Marks.spanNameKey service name)
  | _ => none

end Entry

namespace Span

def isNamed (s : Span) : Bool := !s.name.isEmpty

/-- The entries that find the span at a time by one of its services. A named span is found by its
duration under its name and under the empty name. -/
def indexEntries (s : Span) (service : String) (time : Int64) : List Entry :=
  [.byService service time s.traceId] ++
    (if s.isNamed then [.bySpanName service s.name time s.traceId] else []) ++
    match s.duration with
    | none => []
    | some d =>
      [.byDuration service s.name time d s.traceId] ++
        if s.isNamed then [.byDuration service "" time d s.traceId] else []

def serviceEntries (s : Span) (service : String) : List Entry :=
  [.serviceName service] ++ (if s.isNamed then [.spanName service s.name] else []) ++
    match s.timestamp with
    | none => []
    | some time => s.indexEntries service time

def keyEntries (s : Span) : List Entry :=
  match s.timestamp with
  | none => []
  | some time => s.annotationKeys.map fun key => .byAnnotationKey key time s.traceId

def storedTime (s : Span) : Int64 := s.timestamp.getD 0

def entries (s : Span) : List Entry :=
  [.trace s s.storedTime s.uniquenessKey] ++ s.services.flatMap s.serviceEntries ++ s.keyEntries

end Span

end TraceIndex
