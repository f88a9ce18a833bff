import TraceIndex.Bytes

namespace TraceIndex.Digest

def p32₁ : UInt64 := 0x9E3779B1
def p32₂ : UInt64 := 0x85EBCA77
def p32₃ : UInt64 := 0xC2B2AE3D
def p64₁ : UInt64 := 0x9E3779B185EBCA87
def p64₂ : UInt64 := 0xC2B2AE3D27D4EB4F
def p64₃ : UInt64 := 0x165667B19E3779F9
def p64₄ : UInt64 := 0x85EBCA77C2B2AE63
def p64₅ : UInt64 := 0x27D4EB2F165667C5
def mix₁ : UInt64 := 0x165667919E3779F9
def mix₂ : UInt64 := 0x9FB21C651E98DF25

def secret : Bytes := [
  0xb8, 0xfe, 0x6c, 0x39, 0x23, 0xa4, 0x4b, 0xbe, 0x7c, 0x01, 0x81, 0x2c, 0xf7, 0x21, 0xad, 0x1c,
  0xde, 0xd4, 0x6d, 0xe9, 0x83, 0x90, 0x97, 0xdb, 0x72, 0x40, 0xa4, 0xa4, 0xb7, 0xb3, 0x67, 0x1f,
  0xcb, 0x79, 0xe6, 0x4e, 0xcc, 0xc0, 0xe5, 0x78, 0x82, 0x5a, 0xd0, 0x7d, 0xcc, 0xff, 0x72, 0x21,
  0xb8, 0x08, 0x46, 0x74, 0xf7, 0x43, 0x24, 0x8e, 0xe0, 0x35, 0x90, 0xe6, 0x81, 0x3a, 0x26, 0x4c,
  0x3c, 0x28, 0x52, 0xbb, 0x91, 0xc3, 0x00, 0xcb, 0x88, 0xd0, 0x65, 0x8b, 0x1b, 0x53, 0x2e, 0xa3,
  0x71, 0x64, 0x48, 0x97, 0xa2, 0x0d, 0xf9, 0x4e, 0x38, 0x19, 0xef, 0x46, 0xa9, 0xde, 0xac, 0xd8,
  0xa8, 0xfa, 0x76, 0x3f, 0xe3, 0x9c, 0x34, 0x3f, 0xf9, 0xdc, 0xbb, 0xc7, 0xc7, 0x0b, 0x4f, 0x1d,
  0x8a, 0x51, 0xe0, 0x4b, 0xcd, 0xb4, 0x59, 0x31, 0xc8, 0x9f, 0x7e, 0xc9, 0xd9, 0x78, 0x73, 0x64,
  0xea, 0xc5, 0xac, 0x83, 0x34, 0xd3, 0xeb, 0xc3, 0xc5, 0x81, 0xa0, 0xff, 0xfa, 0x13, 0x63, 0xeb,
  0x17, 0x0d, 0xdd, 0x51, 0xb7, 0xf0, 0xda, 0x49, 0xd3, 0x16, 0x55, 0x26, 0x29, 0xd4, 0x68, 0x9e,
  0x2b, 0x16, 0xbe, 0x58, 0x7d, 0x47, 0xa1, 0xfc, 0x8f, 0xf8, 0xb8, 0xd1, 0x7a, 0xd0, 0x31, 0xce,
  0x45, 0xcb, 0x3a, 0x8f, 0x95, 0x16, 0x04, 0x28, 0xaf, 0xd7, 0xfb, 0xca, 0xbb, 0x4b, 0x40, 0x7e]

/-- The little-endian word of 64 bits at an offset; bytes past the end count as zero. -/
def word (bytes : Bytes) (offset : Nat) : UInt64 :=
  UInt64.ofNat (Bytes.ofLittle ((bytes.drop offset).take 8))

def half (bytes : Bytes) (offset : Nat) : UInt64 :=
  UInt64.ofNat (Bytes.ofLittle ((bytes.drop offset).take 4))

def key (offset : Nat) : UInt64 := word secret offset

def rotateLeft (x : UInt64) (n : UInt64) : UInt64 := x <<< n ||| x >>> (64 - n)

def swapBytes (x : UInt64) : UInt64 :=
  UInt64.ofNat (Bytes.ofLittle (Bytes.big 8 x.toNat))

/-- The two halves of a product of 128 bits, folded together. -/
def foldProduct (a b : UInt64) : UInt64 :=
  let p := a.toNat * b.toNat
  UInt64.ofNat p ^^^ UInt64.ofNat (p / UInt64.size)

def finish (h : UInt64) : UInt64 :=
  let h := (h ^^^ h >>> 37) * mix₁
  h ^^^ h >>> 32

def finishShort (h : UInt64) : UInt64 :=
  let h := (h ^^^ h >>> 33) * p64₂
  let h := (h ^^^ h >>> 29) * p64₃
  h ^^^ h >>> 32

def upTo3 (bytes : Bytes) (len : Nat) : UInt64 :=
  let byteAt (i : Nat) : UInt64 := ((bytes.drop i).headD 0).toUInt64
  let combined := byteAt 0 <<< 16 ||| byteAt (len / 2) <<< 24 ||| byteAt (len - 1) |||
    UInt64.ofNat len <<< 8
  finishShort (combined ^^^ (half secret 0 ^^^ half secret 4))

def from4To8 (bytes : Bytes) (len : Nat) : UInt64 :=
  let h := half bytes (len - 4) + half bytes 0 <<< 32
  let h := h ^^^ (key 8 ^^^ key 16)
  let h := (h ^^^ rotateLeft h 49 ^^^ rotateLeft h 24) * mix₂
  let h := (h ^^^ (h >>> 35 + UInt64.ofNat len)) * mix₂
  h ^^^ h >>> 28

def from9To16 (bytes : Bytes) (len : Nat) : UInt64 :=
  let lo := word bytes 0 ^^^ (key 24 ^^^ key 32)
  let hi := word bytes (len - 8) ^^^ (key 40 ^^^ key 48)
  finish (UInt64.ofNat len + swapBytes lo + hi + foldProduct lo hi)

def mixed (bytes : Bytes) (offset keyOffset : Nat) : UInt64 :=
  foldProduct (word bytes offset ^^^ key keyOffset) (word bytes (offset + 8) ^^^ key (keyOffset + 8))

def from17To128 (bytes : Bytes) (len : Nat) : UInt64 :=
  let pairs := (len - 1) / 32 + 1
  finish <| (List.range pairs).foldl
    (fun acc i => acc + mixed bytes (16 * i) (32 * i) +
      mixed bytes (len - 16 * (i + 1)) (32 * i + 16))
    (UInt64.ofNat len * p64₁)

def from129To240 (bytes : Bytes) (len : Nat) : UInt64 :=
  let first := (List.range 8).foldl (fun acc i => acc + mixed bytes (16 * i) (16 * i))
    (UInt64.ofNat len * p64₁)
  let later := (List.range (len / 16 - 8)).foldl
    (fun acc i => acc + mixed bytes (128 + 16 * i) (16 * i + 3)) (finish first)
  finish (later + mixed bytes (len - 16) 119)

abbrev Lanes := List UInt64

def startLanes : Lanes := [p32₃, p64₁, p64₂, p64₃, p64₄, p32₂, p64₅, p32₁]

def swapPairs : Lanes → Lanes
  | a :: b :: rest => b :: a :: swapPairs rest
  | rest => rest

def words (n : Nat) (bytes : Bytes) : List UInt64 :=
  (List.range n).map fun i => word bytes (8 * i)

def lowTimesHigh (x : UInt64) : UInt64 := x % 4294967296 * (x >>> 32)

/-- A stripe of 64 bytes taken into the lanes: each word goes to the neighbouring lane, and its
product with the secret to its own. -/
def accumulate (lanes : Lanes) (stripe : Bytes) (keyOffset : Nat) : Lanes :=
  let data := words 8 stripe
  let keys := (List.range 8).map fun i => key (keyOffset + 8 * i)
  let products := List.zipWith (fun d k => lowTimesHigh (d ^^^ k)) data keys
  List.zipWith (· + ·) (List.zipWith (· + ·) lanes (swapPairs data)) products

def scrambled (lane : UInt64) (i : Nat) : UInt64 :=
  let mixed := lane ^^^ lane >>> 47 ^^^ key (128 + 8 * i)
  mixed * p32₁

def scramble (lanes : Lanes) : Lanes := lanes.mapIdx fun i lane => scrambled lane i

/-- Whole stripes, of which the last ends before the end of the bytes. After each sixteen the
lanes are scrambled. -/
def stripes (lanes : Lanes) : Nat → Nat → Bytes → Lanes
  | 0, _, _ => lanes
  | n + 1, i, bytes =>
    let next := accumulate lanes (bytes.take 64) (8 * i)
    if i = 15 then stripes (scramble next) n 0 (bytes.drop 64)
    else stripes next n (i + 1) (bytes.drop 64)

def merge (lanes : Lanes) (len : Nat) : UInt64 :=
  let lane (i : Nat) : UInt64 := lanes.getD i 0
  finish <| (List.range 4).foldl
    (fun acc i => acc + foldProduct (lane (2 * i) ^^^ key (11 + 16 * i))
      (lane (2 * i + 1) ^^^ key (19 + 16 * i)))
    (UInt64.ofNat len * p64₁)

def over240 (bytes : Bytes) (len : Nat) : UInt64 :=
  let lanes := stripes startLanes ((len - 1) / 64) 0 bytes
  merge (accumulate lanes (bytes.drop (len - 64)) 121) len

/-- The XXH3 hash of 64 bits under the default secret and the seed zero. -/
def xxh3 (bytes : Bytes) : UInt64 :=
  let len := bytes.length
  if len = 0 then finishShort (key 56 ^^^ key 64)
  else if len ≤ 3 then upTo3 bytes len
  else if len ≤ 8 then from4To8 bytes len
  else if len ≤ 16 then from9To16 bytes len
  else if len ≤ 128 then from17To128 bytes len
  else if len ≤ 240 then from129To240 bytes len
  else over240 bytes len

end TraceIndex.Digest
