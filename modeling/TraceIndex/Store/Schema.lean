import TraceIndex.Store.Keyspace

namespace TraceIndex

structure Metadata where
  keyspace : String
  replication : Except StoreFailure Options
  options : Table → Except StoreFailure Options

def Keyspace.metadata (k : Keyspace) : Metadata where
  keyspace := k.name
  replication := .ok k.replication
  options := fun t => .ok (k.options.get t)

/-- What is read of the schema once, before anything is written. -/
structure Schema where
  compaction : String
  deriving DecidableEq, Repr

namespace Schema

def endsWith (s ending : String) : Bool := ending.toList.reverse.isPrefixOf s.toList.reverse

def occursIn (part : List Char) : List Char → Bool
  | [] => part.isEmpty
  | c :: rest => part.isPrefixOf (c :: rest) || occursIn part rest

/-- A single copy of each row, by the simple strategy. -/
def isUnreplicated (replication : Options) : Bool :=
  (replication.get? "class").any (endsWith · "SimpleStrategy") &&
    replication.get? "replication_factor" = some "1"

def warnsOfReplication (m : Metadata) : Bool :=
  match m.replication with
  | .ok replication => isUnreplicated replication
  | .error _ => false

def read (m : Metadata) : Except StoreFailure Schema := do
  let _ ← m.replication
  let traces ← m.options .traces
  return ⟨traces.compaction?.getD ""⟩

def windowedCompactions : List String :=
  ["DateTieredCompactionStrategy", "TimeWindowCompactionStrategy"]

/-- Whether the fact table is compacted by the time of its rows. Rows without a time then stay in
the oldest window for ever. -/
def isTimeWindowed (s : Schema) : Bool := windowedCompactions.any fun c => occursIn c.toList s.compaction.toList

end Schema

end TraceIndex
