namespace TraceIndex

abbrev Bytes := List UInt8

namespace Bytes

/-- How many numbers so many bytes tell apart. -/
def room : Nat → Nat
  | 0 => 1
  | n + 1 => 256 * room n

def little : Nat → Nat → Bytes
  | 0, _ => []
  | n + 1, v => UInt8.ofNat v :: little n (v / 256)

def big (n v : Nat) : Bytes := (little n v).reverse

/-- The number written in base 256, least significant byte first. -/
def ofLittle : Bytes → Nat
  | [] => 0
  | b :: rest => b.toNat + 256 * ofLittle rest

def ofBig (bytes : Bytes) : Nat := ofLittle bytes.reverse

def hexDigits (b : UInt8) : List Char :=
  [Nat.digitChar (b.toNat / 16), Nat.digitChar (b.toNat % 16)]

def hex (bytes : Bytes) : String := String.ofList (bytes.flatMap hexDigits)

def hexValue? (c : Char) : Option Nat :=
  if '0' ≤ c ∧ c ≤ '9' then some (c.toNat - 48)
  else if 'a' ≤ c ∧ c ≤ 'f' then some (c.toNat - 87)
  else if 'A' ≤ c ∧ c ≤ 'F' then some (c.toNat - 55)
  else none

def ofHexDigits? : List Char → Option Bytes
  | [] => some []
  | h :: l :: rest => do
    let h ← hexValue? h
    let l ← hexValue? l
    let bytes ← ofHexDigits? rest
    return UInt8.ofNat (16 * h + l) :: bytes
  | [_] => none

/-- Refuses an odd number of digits and anything that is not a hexadecimal digit. -/
def ofHex? (s : String) : Option Bytes := ofHexDigits? s.toList

end Bytes

end TraceIndex
