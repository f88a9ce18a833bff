import TraceIndex.Packed.Basic

namespace TraceIndex.Packed

def take? (n : Nat) (bytes : Bytes) : Option (Bytes × Bytes) :=
  let first := bytes.take n
  if first.length = n then some (first, bytes.drop n) else none

def number? (width : Nat) (bytes : Bytes) : Option (Nat × Bytes) :=
  (take? width bytes).map fun r => (Bytes.ofBig r.1, r.2)

def ofComplement (width n : Nat) : Int :=
  if 2 * n < Bytes.room width then n else (n : Int) - Bytes.room width

/-- What a value begins with: all of it, or the shape of what is still to come. -/
inductive Head
  | whole (v : Packed)
  | unsigned (width : Nat)
  | signed (width : Nat)
  | float (width : Nat)
  | text (length : Nat)
  | binary (length : Nat)
  | array (length : Nat)
  | map (length : Nat)
  | extension (length : Nat)

def long? (head : Nat → Head) (width : Nat) (bytes : Bytes) : Option (Head × Bytes) :=
  (number? width bytes).map fun r => (head r.1, r.2)

def head? : Bytes → Option (Head × Bytes)
  | [] => none
  | m :: rest =>
    if m < 0x80 then some (.whole (.unsigned m.toUInt64), rest)
    else if m < 0x90 then some (.map (m.toNat - 0x80), rest)
    else if m < 0xA0 then some (.array (m.toNat - 0x90), rest)
    else if m < 0xC0 then some (.text (m.toNat - 0xA0), rest)
    else if 0xE0 ≤ m then some (.whole (.signed (Int64.ofInt (ofComplement 1 m.toNat))), rest)
    else
      match m with
      | 0xC0 => some (.whole .nil, rest)
      | 0xC2 => some (.whole (.bool false), rest)
      | 0xC3 => some (.whole (.bool true), rest)
      | 0xC4 => long? .binary 1 rest
      | 0xC5 => long? .binary 2 rest
      | 0xC6 => long? .binary 4 rest
      | 0xC7 => long? .extension 1 rest
      | 0xC8 => long? .extension 2 rest
      | 0xC9 => long? .extension 4 rest
      | 0xCA => some (.float 4, rest)
      | 0xCB => some (.float 8, rest)
      | 0xCC => some (.unsigned 1, rest)
      | 0xCD => some (.unsigned 2, rest)
      | 0xCE => some (.unsigned 4, rest)
      | 0xCF => some (.unsigned 8, rest)
      | 0xD0 => some (.signed 1, rest)
      | 0xD1 => some (.signed 2, rest)
      | 0xD2 => some (.signed 4, rest)
      | 0xD3 => some (.signed 8, rest)
      | 0xD4 => some (.extension 1, rest)
      | 0xD5 => some (.extension 2, rest)
      | 0xD6 => some (.extension 4, rest)
      | 0xD7 => some (.extension 8, rest)
      | 0xD8 => some (.extension 16, rest)
      | 0xD9 => long? .text 1 rest
      | 0xDA => long? .text 2 rest
      | 0xDB => long? .text 4 rest
      | 0xDC => long? .array 2 rest
      | 0xDD => long? .array 4 rest
      | 0xDE => long? .map 2 rest
      | 0xDF => long? .map 4 rest
      | _ => none

/-- How many values may stand inside one another before reading is refused. -/
def deepest : Nat := 1023

def extension? (length : Nat) (bytes : Bytes) : Option (Packed × Bytes) := do
  let (kind, bytes) ← take? 1 bytes
  let (inside, rest) ← take? length bytes
  return (.extension (kind.headD 0) inside, rest)

mutual

/-- A value at the start of the bytes, and what follows it, where values may still nest as deep
as `room` says. -/
def value? (room : Nat) : Nat → Bytes → Option (Packed × Bytes)
  | 0, _ => none
  | fuel + 1, bytes =>
    match head? bytes with
    | none => none
    | some (.whole v, rest) => some (v, rest)
    | some (.unsigned width, rest) =>
      (number? width rest).map fun r => (unsigned (UInt64.ofNat r.1), r.2)
    | some (.signed width, rest) =>
      (number? width rest).map fun r => (signed (Int64.ofInt (ofComplement width r.1)), r.2)
    | some (.float width, rest) => (take? width rest).map fun r => (float r.1, r.2)
    | some (.text length, rest) => (take? length rest).map fun r => (text r.1, r.2)
    | some (.binary length, rest) => (take? length rest).map fun r => (binary r.1, r.2)
    | some (.extension length, rest) => if room = 0 then none else extension? length rest
    | some (.array length, rest) =>
      if room = 0 then none
      else (items? (room - 1) length fuel rest).map fun r => (array r.1, r.2)
    | some (.map length, rest) =>
      if room = 0 then none
      else (entries? (room - 1) length fuel rest).map fun r => (map r.1, r.2)

def items? (room length : Nat) : Nat → Bytes → Option (List Packed × Bytes)
  | 0, _ => none
  | fuel + 1, bytes =>
    if length = 0 then some ([], bytes)
    else
      match value? room fuel bytes with
      | none => none
      | some (v, rest) => (items? room (length - 1) fuel rest).map fun r => (v :: r.1, r.2)

def entries? (room length : Nat) : Nat → Bytes → Option (List (Packed × Packed) × Bytes)
  | 0, _ => none
  | fuel + 1, bytes =>
    if length = 0 then some ([], bytes)
    else
      match value? room fuel bytes with
      | none => none
      | some (k, rest) =>
        match value? room fuel rest with
        | none => none
        | some (v, rest) =>
          (entries? room (length - 1) fuel rest).map fun r => ((k, v) :: r.1, r.2)

end

/-- More steps than reading the bytes can take: each byte begins at most two. -/
def enough (bytes : Bytes) : Nat := 2 * bytes.length + 2

def parse? (bytes : Bytes) : Option Packed := (value? deepest (enough bytes) bytes).map (·.1)

end TraceIndex.Packed
