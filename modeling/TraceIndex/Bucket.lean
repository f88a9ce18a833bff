import TraceIndex.Random.Bounded

namespace TraceIndex

/-- Buckets drawn at random, so that no partition takes all the writes of a busy name. -/
structure RandomBuckets where
  count : UInt32
  count_ne_zero : count ≠ 0
  words : Words

namespace RandomBuckets

def ofWords? (count : UInt32) (words : Words) : Option RandomBuckets :=
  if h : count = 0 then none else some ⟨count, h, words⟩

def seeded? (count : UInt32) (seed : UInt64) : Option RandomBuckets :=
  ofWords? count (.seeded seed)

/-- The bucket column is signed: a number of `2 ^ 31` or more is bound as a negative bucket. -/
def draw (b : RandomBuckets) : Int32 × RandomBuckets :=
  let (n, words) := b.words.below b.count
  (n.toInt32, { b with words })

def draws : Nat → RandomBuckets → List Int32 × RandomBuckets
  | 0, b => ([], b)
  | n + 1, b =>
    let (first, b) := b.draw
    let (rest, b) := draws n b
    (first :: rest, b)

end RandomBuckets

/-- With windows as wide as this, in microseconds, the bucket of every time fits 32 bits. -/
def narrowestWindow : Int64 := 4294967296

structure DurationBuckets where
  window : Int64
  wide : narrowestWindow ≤ window

namespace DurationBuckets

def daily : DurationBuckets := ⟨86400000000, by decide⟩

def ofWindow? (window : Int64) : Option DurationBuckets :=
  if h : narrowestWindow ≤ window then some ⟨window, h⟩ else none

def bucket (d : DurationBuckets) (time : Int64) : Int32 :=
  Int32.ofInt (time.toInt / d.window.toInt)

def between (d : DurationBuckets) (a b : Int64) : Int32 × Int32 :=
  (d.bucket (min a b), d.bucket (max a b))

end DurationBuckets

end TraceIndex
