import TraceIndex.Ingest.Service

namespace TraceIndex

/-- What a service is opened with. Without a seed, buckets are drawn with the words of the entropy,
which may be any stream. -/
structure Setup where
  isEphemeral : Bool
  store : Keyspace
  metadata : Metadata
  gate : List Table
  settings : Settings
  codec : Codec
  clock : Clock
  seed : Option UInt64
  entropy : Words := .seeded 0

namespace Setup

def words (s : Setup) : Words := s.seed.elim s.entropy Words.seeded

def ofStore (store : Keyspace) : Setup where
  isEphemeral := false
  store
  metadata := store.metadata
  gate := []
  settings := {}
  codec := .msgpack
  clock := ⟨0⟩
  seed := none

def ephemeral (keyspace : String) : Setup :=
  { ofStore (.named keyspace) with isEphemeral := true }

def withFile (s : Setup) (bytes : Option Bytes) : Except Settings.Problem Setup := do
  let settings ← Settings.ofFile bytes
  return { s with settings }

/-- Why a service does not open with its settings. Here a file that cannot be read is a fault of the
setup too. -/
def problemFailure (p : Settings.Problem) : Failure := .config p.text

def replicationNotices (m : Metadata) : List Notice :=
  if Schema.warnsOfReplication m then [.unreplicated m.keyspace] else []

def bucketsOf (settings : Settings) (words : Words) :
    Except Failure (RandomBuckets × DurationBuckets) := do
  let some random := RandomBuckets.ofWords? settings.bucketCount words
    | throw (.config "bucket_count must be positive")
  let some durations := DurationBuckets.ofWindow? settings.durationWindow
    | throw (.config "duration_bucket_micros below minimum window")
  return (random, durations)

def service (s : Setup) (schema : Schema) (expiry : ExpiryPolicy) (random : RandomBuckets)
    (durations : DurationBuckets) : Service where
  isEphemeral := s.isEphemeral
  settings := s.settings
  schema
  writer := ⟨expiry, durations, s.codec, s.settings.keyLimit⟩
  gate := s.gate
  store := s.store
  held := []
  issued := 0
  clock := s.clock
  buckets := random
  hasWarned := false
  metrics := {}
  notices := replicationNotices s.metadata
  workers := []
  batches := []

/-- A service of valid settings over a store that tells its replication, its tables and how their
rows expire. Nothing is written. -/
def openService (s : Setup) : Except Failure Service := do
  let settings ← s.settings.validate.mapError problemFailure
  let (random, durations) ← bucketsOf settings s.words
  let schema ← (Schema.read s.metadata).mapError Failure.ofStore
  let expiry ← (ExpiryPolicy.resolve s.metadata settings.spanTtl settings.indexTtl).mapError
    Failure.ofStore
  return s.service schema expiry random durations

/-- What is told while a service is opened, whether it opens or not. -/
def openNotices (s : Setup) : List Notice :=
  match s.settings.validate with
  | .ok _ => replicationNotices s.metadata
  | .error _ => []

end Setup

end TraceIndex
