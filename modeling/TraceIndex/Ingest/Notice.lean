import TraceIndex.Store.Statement

namespace TraceIndex

inductive Notice
  | unreplicated (keyspace : String)
  | untimedSpan (traceId spanId : UInt64) (compaction : String)
  | undrained (outstanding : Nat)
  | writeFailed (statement : Statement) (failure : StoreFailure)
  deriving DecidableEq, Repr

namespace Notice

def level : Notice → String
  | writeFailed .. => "ERROR"
  | _ => "WARN"

def message : Notice → String
  | unreplicated _ => "running with RF=1, this is not suitable for production. Optimal is 3+"
  | untimedSpan .. =>
    "span has no timestamp; if this happens a lot consider switching back to " ++
      "SizeTieredCompactionStrategy for traces"
  | undrained _ => "no runtime to drain outstanding writes; their dedup marks are reverted"
  | writeFailed s _ => "failed " ++ s.insert.name

def details : Notice → List (String × String)
  | unreplicated keyspace => [("keyspace", keyspace)]
  | untimedSpan traceId spanId compaction =>
    [("trace_id", Text.decimal traceId.toNat), ("span_id", Text.decimal spanId.toNat),
      ("compaction", compaction)]
  | undrained outstanding => [("outstanding", Text.decimal outstanding)]
  | writeFailed s failure => [("statement", s.render), ("error", failure.text)]

end Notice

end TraceIndex
