import TraceIndex.Bytes
import TraceIndex.Store.Failure
import TraceIndex.Time.Iso

namespace TraceIndex

/-- An instant of a clustering column, in microseconds since 1970. The store compares the bytes
it is written as. -/
structure SortableTime where
  micros : Int64
  deriving DecidableEq, Repr

namespace SortableTime

def width : Nat := 8

def signBit : UInt64 := 0x8000000000000000

/-- With the sign bit flipped, the order of the bytes is the order of time. -/
def bytes (t : SortableTime) : Bytes :=
  Bytes.big width (t.micros.toUInt64 ^^^ signBit).toNat

def ofBytes (bytes : Bytes) : Except StoreFailure SortableTime :=
  if bytes.length = width then
    .ok ⟨(UInt64.ofNat (Bytes.ofBig bytes) ^^^ signBit).toInt64⟩
  else
    .error (.invalidValue "ts" ("expected " ++ Text.decimal width ++ " bytes, got " ++
      Text.decimal bytes.length))

def text (t : SortableTime) : String := Iso.instant t.micros.toInt

instance : Ord SortableTime := ⟨compareOn bytes⟩

end SortableTime

end TraceIndex
