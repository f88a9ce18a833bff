import TraceIndex.Random.Words

namespace TraceIndex.Words

/-- The greatest low half of a product with the bound that is accepted: as many words then lead
to each result. -/
def zone (bound : UInt32) : UInt32 :=
  UInt32.ofNat (bound.toNat <<< (31 - bound.toNat.log2)) - 1

def accepts (bound word : UInt32) : Bool :=
  word.toNat * bound.toNat % UInt32.size ≤ (zone bound).toNat

def scaled (bound word : UInt32) : UInt32 :=
  UInt32.ofNat (word.toNat * bound.toNat / UInt32.size)

def firstAccepted (bound : UInt32) : Nat → Words → UInt32 × Words
  | 0, s => (0, s)
  | tries + 1, s =>
    let (word, s) := s.next
    if accepts bound word then (scaled bound word, s) else firstAccepted bound tries s

def period : Nat := 1 <<< 68

/-- A number below the bound. A whole period is tried: where it holds no accepted word, no later
word is accepted either. -/
def below (bound : UInt32) (s : Words) : UInt32 × Words := firstAccepted bound period s

end TraceIndex.Words
