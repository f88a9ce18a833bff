import TraceIndex.Bucket
import TraceIndex.Failure

namespace TraceIndex

/-- What an operator may set. The two expiries apply to tables without one of their own. -/
structure Settings where
  bucketCount : UInt32 := 10
  spanTtl : UInt32 := 604800
  indexTtl : UInt32 := 259200
  dedupMillis : UInt64 := 3600000
  keyLimit : UInt64 := 65535
  durationWindow : Int64 := 86400000000
  deriving DecidableEq, Repr

namespace Settings

inductive Problem
  | unreadable
  | malformed
  | outOfRange (message : String)
  deriving DecidableEq, Repr

def Problem.text : Problem → String
  | unreadable => "the settings are not a file of text"
  | malformed => "the settings are not a document of known integers"
  | outOfRange message => message

def Problem.failure : Problem → Failure
  | unreadable => .io Problem.unreadable.text
  | problem => .config problem.text

/-- The first limit that is not kept decides. -/
def validate (s : Settings) : Except Problem Settings :=
  if s.bucketCount = 0 then .error (.outOfRange "bucket_count must be positive")
  else if s.dedupMillis = 0 then .error (.outOfRange "dedup_window_ms must be positive")
  else if s.durationWindow < narrowestWindow then
    .error (.outOfRange ("duration_bucket_micros must be at least " ++
      Text.decimal narrowestWindow.toInt))
  else if s.keyLimit = 0 then .error (.outOfRange "max_indexable_value_bytes must be positive")
  else .ok s

inductive Field
  | bucketCount | spanTtl | indexTtl | dedupMillis | keyLimit | durationWindow
  deriving DecidableEq, Repr

namespace Field

def all : List Field := [bucketCount, spanTtl, indexTtl, dedupMillis, keyLimit, durationWindow]

def name : Field → String
  | bucketCount => "bucket_count"
  | spanTtl => "span_ttl_seconds"
  | indexTtl => "index_ttl_seconds"
  | dedupMillis => "dedup_window_ms"
  | keyLimit => "max_indexable_value_bytes"
  | durationWindow => "duration_bucket_micros"

def ofName? (name : String) : Option Field := all.find? (·.name = name)

/-- The least value of the field's type, and the value that it stays below. -/
def bounds : Field → Int × Int
  | bucketCount | spanTtl | indexTtl => (0, UInt32.size)
  | dedupMillis | keyLimit => (0, UInt64.size)
  | durationWindow => (-0x8000000000000000, 0x8000000000000000)

end Field

def get (s : Settings) : Field → Int
  | .bucketCount => s.bucketCount.toNat
  | .spanTtl => s.spanTtl.toNat
  | .indexTtl => s.indexTtl.toNat
  | .dedupMillis => s.dedupMillis.toNat
  | .keyLimit => s.keyLimit.toNat
  | .durationWindow => s.durationWindow.toInt

def set? (s : Settings) (f : Field) (n : Int) : Option Settings :=
  if f.bounds.1 ≤ n ∧ n < f.bounds.2 then
    some <| match f with
      | .bucketCount => { s with bucketCount := UInt32.ofInt n }
      | .spanTtl => { s with spanTtl := UInt32.ofInt n }
      | .indexTtl => { s with indexTtl := UInt32.ofInt n }
      | .dedupMillis => { s with dedupMillis := UInt64.ofInt n }
      | .keyLimit => { s with keyLimit := UInt64.ofInt n }
      | .durationWindow => { s with durationWindow := Int64.ofInt n }
  else none

end Settings

end TraceIndex
