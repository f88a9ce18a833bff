import TraceIndex.Bytes

namespace TraceIndex.Utf8

def encodeChars (cs : List Char) : Bytes := cs.flatMap String.utf8EncodeChar

def encode (s : String) : Bytes := encodeChars s.toList

/-- The bytes that may follow a leading byte: the range of the next one and the number of
continuation bytes after it. -/
structure Lead where
  bits : Nat
  low : UInt8
  high : UInt8
  more : Nat

def lead? (a : UInt8) : Option Lead :=
  if a < 0xC2 then none
  else if a < 0xE0 then some ⟨a.toNat - 0xC0, 0x80, 0xBF, 0⟩
  else if a = 0xE0 then some ⟨0, 0xA0, 0xBF, 1⟩
  else if a = 0xED then some ⟨13, 0x80, 0x9F, 1⟩
  else if a < 0xF0 then some ⟨a.toNat - 0xE0, 0x80, 0xBF, 1⟩
  else if a = 0xF0 then some ⟨0, 0x90, 0xBF, 2⟩
  else if a < 0xF4 then some ⟨a.toNat - 0xF0, 0x80, 0xBF, 2⟩
  else if a = 0xF4 then some ⟨4, 0x80, 0x8F, 2⟩
  else none

def isTail (b : UInt8) : Bool := 0x80 ≤ b && b ≤ 0xBF

def extend (bits : Nat) (b : UInt8) : Nat := bits * 64 + (b.toNat - 0x80)

/-- Bytes cut into characters, with `none` for each longest run of bytes that begins like a
character and does not end as one. -/
def pieces : Bytes → List (Option Char)
  | [] => []
  | a :: rest =>
    if a < 0x80 then some (Char.ofNat a.toNat) :: pieces rest
    else
      match lead? a with
      | none => none :: pieces rest
      | some l =>
        match rest with
        | [] => [none]
        | b :: rest =>
          if l.low ≤ b ∧ b ≤ l.high then
            if l.more = 0 then some (Char.ofNat (extend l.bits b)) :: pieces rest
            else
              match rest with
              | [] => [none]
              | c :: rest =>
                if isTail c then
                  if l.more = 1 then
                    some (Char.ofNat (extend (extend l.bits b) c)) :: pieces rest
                  else
                    match rest with
                    | [] => [none]
                    | d :: rest =>
                      if isTail d then
                        some (Char.ofNat (extend (extend (extend l.bits b) c) d)) :: pieces rest
                      else none :: pieces (d :: rest)
                else none :: pieces (c :: rest)
          else none :: pieces (b :: rest)

def decodeChars? (bytes : Bytes) : Option (List Char) := (pieces bytes).mapM id

def decode? (bytes : Bytes) : Option String := (decodeChars? bytes).map String.ofList

/-- One replacement character stands for each ill-formed piece. -/
def lossyChars (bytes : Bytes) : List Char := (pieces bytes).map (·.getD '\uFFFD')

def lossy (bytes : Bytes) : String := String.ofList (lossyChars bytes)

end TraceIndex.Utf8
