import TraceIndex.Text.Utf8
import TraceIndex.Time.Sortable

namespace TraceIndex

inductive Cell
  | bigint (n : Int64)
  | int (n : Int32)
  | text (s : String)
  | blob (bytes : Bytes)
  | timestamp (t : SortableTime)
  deriving DecidableEq, Repr

namespace Cell

/-- The size that counts against the limits on keys. -/
def size : Cell → Nat
  | bigint _ => 8
  | int _ => 4
  | text s => (Utf8.encode s).length
  | blob bytes => bytes.length
  | timestamp _ => SortableTime.width

def kind : Cell → Nat
  | bigint _ => 0
  | int _ => 1
  | text _ => 2
  | blob _ => 3
  | timestamp _ => 4

def content : Cell → List Int
  | bigint n => [n.toInt]
  | int n => [n.toInt]
  | text s => (Utf8.encode s).map (·.toNat)
  | blob bytes => bytes.map (·.toNat)
  | timestamp t => t.bytes.map (·.toNat)

/-- Cells of one kind compare as numbers or byte by byte. -/
instance : Ord Cell := ⟨compareLex (compareOn kind) (compareOn content)⟩

instance : Std.TransOrd Cell :=
  inferInstanceAs (Std.TransCmp (compareLex (compareOn kind) (compareOn content)))

def quotedChar (c : Char) : List Char := if c = '\'' then [c, c] else [c]

def literal : Cell → String
  | bigint n => Text.decimal n.toInt
  | int n => Text.decimal n.toInt
  | text s => String.ofList ('\'' :: s.toList.flatMap quotedChar ++ ['\''])
  | blob bytes => "0x" ++ Bytes.hex bytes
  | timestamp t => "'" ++ t.text ++ "'"

end Cell

end TraceIndex
