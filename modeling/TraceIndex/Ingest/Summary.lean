import TraceIndex.Ingest.Setup
import TraceIndex.Text.Quoted
import TraceIndex.Text.Record

namespace TraceIndex

open Text

def RandomBuckets.summary (b : RandomBuckets) : String :=
  partOfRecord "RandomBuckets" [("bucket_count", decimal b.count.toNat)]

def DurationBuckets.summary (d : DurationBuckets) : String :=
  record "DurationBuckets" [("window_micros", decimal d.window.toInt)]

def Keyspace.summary (k : Keyspace) : String :=
  partOfRecord "MemorySession"
    [("keyspace", quoted k.name), ("applied", decimal k.applied), ("failed", decimal k.failed)]

def Schema.summary (s : Schema) : String :=
  record "SchemaMetadata" [("compaction_class", quoted s.compaction)]

def Settings.summary (s : Settings) : String :=
  record "ConsumerConfig" (Field.all.map fun f => (f.name, decimal (s.get f)))

def Expiry.summary : Expiry → String
  | serverDefault seconds => "ServerDefault(" ++ decimal seconds.toNat ++ ")"
  | explicit seconds => "Explicit(" ++ decimal seconds.toNat ++ ")"

namespace ExpiryPolicy

def tableSummary : Table → String
  | .traces => "Traces"
  | .serviceNames => "ServiceNames"
  | .spanNames => "SpanNames"
  | .byService => "ServiceNameIndex"
  | .bySpanName => "ServiceSpanNameIndex"
  | .byAnnotationKey => "AnnotationsIndex"
  | .byDuration => "SpanDurationIndex"

def summary (p : ExpiryPolicy) : String :=
  let tables := Table.all.map fun t => field (tableSummary t, (p.get t).summary)
  record "TtlPolicy" [("tables", "\x7b" ++ ", ".intercalate tables ++ "\x7d")]

end ExpiryPolicy

namespace Service

def bucketsSummary (s : Service) : String :=
  record "BucketingStrategy"
    [("random", s.buckets.summary), ("duration", s.writer.durations.summary)]

def writerSummary (s : Service) : String :=
  partOfRecord "IndexWriters"
    [("keyspace", quoted s.store.name), ("ttl", s.writer.expiry.summary),
      ("buckets", s.bucketsSummary), ("codec", quoted s.writer.codec.name)]

def sharedSummary (s : Service) : String :=
  partOfRecord "SpanConsumer"
    [("writers", s.writerSummary), ("schema", s.schema.summary), ("config", s.settings.summary)]

def summary (s : Service) : String :=
  record "SpanStore"
    [("keyspace", quoted s.store.name), ("codec", quoted s.writer.codec.name),
      ("ephemeral", if s.isEphemeral then "true" else "false")]

end Service

end TraceIndex
