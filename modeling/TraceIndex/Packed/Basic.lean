import TraceIndex.Bytes

namespace TraceIndex

/-- A value of the binary format. Integers remember whether they are written with a sign, floats
are kept as their bits. -/
inductive Packed
  | nil
  | bool (b : Bool)
  | unsigned (n : UInt64)
  | signed (n : Int64)
  | float (bits : Bytes)
  | text (bytes : Bytes)
  | binary (bytes : Bytes)
  | array (items : List Packed)
  | map (entries : List (Packed × Packed))
  | extension (kind : UInt8) (bytes : Bytes)

namespace Packed

def unsignedBytes (n : Nat) : Bytes :=
  if n < 0x80 then [UInt8.ofNat n]
  else if n < 0x100 then 0xCC :: Bytes.big 1 n
  else if n < 0x10000 then 0xCD :: Bytes.big 2 n
  else if n < 0x100000000 then 0xCE :: Bytes.big 4 n
  else 0xCF :: Bytes.big 8 n

/-- A number of so many bytes with a sign, as the complement to two. -/
def complement (width : Nat) (n : Int) : Bytes := Bytes.big width (n % Bytes.room width).toNat

def signedBytes (n : Int) : Bytes :=
  if -0x20 ≤ n ∧ n < 0 then complement 1 n
  else if -0x80 ≤ n ∧ n < 0x80 then 0xD0 :: complement 1 n
  else if -0x8000 ≤ n ∧ n < 0x8000 then 0xD1 :: complement 2 n
  else if -0x80000000 ≤ n ∧ n < 0x80000000 then 0xD2 :: complement 4 n
  else 0xD3 :: complement 8 n

def textHead (length : Nat) : Bytes :=
  if length < 0x20 then [UInt8.ofNat (0xA0 + length)]
  else if length < 0x100 then 0xD9 :: Bytes.big 1 length
  else if length < 0x10000 then 0xDA :: Bytes.big 2 length
  else 0xDB :: Bytes.big 4 length

def binaryHead (length : Nat) : Bytes :=
  if length < 0x100 then 0xC4 :: Bytes.big 1 length
  else if length < 0x10000 then 0xC5 :: Bytes.big 2 length
  else 0xC6 :: Bytes.big 4 length

def arrayHead (length : Nat) : Bytes :=
  if length < 0x10 then [UInt8.ofNat (0x90 + length)]
  else if length < 0x10000 then 0xDC :: Bytes.big 2 length
  else 0xDD :: Bytes.big 4 length

def mapHead (length : Nat) : Bytes :=
  if length < 0x10 then [UInt8.ofNat (0x80 + length)]
  else if length < 0x10000 then 0xDE :: Bytes.big 2 length
  else 0xDF :: Bytes.big 4 length

def floatHead (width : Nat) : Bytes := if width = 4 then [0xCA] else [0xCB]

def extensionHead (length : Nat) : Bytes :=
  if length = 1 then [0xD4]
  else if length = 2 then [0xD5]
  else if length = 4 then [0xD6]
  else if length = 8 then [0xD7]
  else if length = 16 then [0xD8]
  else if length < 0x100 then 0xC7 :: Bytes.big 1 length
  else if length < 0x10000 then 0xC8 :: Bytes.big 2 length
  else 0xC9 :: Bytes.big 4 length

mutual

def print : Packed → Bytes
  | nil => [0xC0]
  | bool false => [0xC2]
  | bool true => [0xC3]
  | unsigned n => unsignedBytes n.toNat
  | signed n => signedBytes n.toInt
  | float bits => floatHead bits.length ++ bits
  | text bytes => textHead bytes.length ++ bytes
  | binary bytes => binaryHead bytes.length ++ bytes
  | array items => arrayHead items.length ++ printItems items
  | map entries => mapHead entries.length ++ printEntries entries
  | extension kind bytes => extensionHead bytes.length ++ kind :: bytes

def printItems : List Packed → Bytes
  | [] => []
  | v :: rest => print v ++ printItems rest

def printEntries : List (Packed × Packed) → Bytes
  | [] => []
  | (k, v) :: rest => print k ++ print v ++ printEntries rest

end

end Packed

end TraceIndex
