import TraceIndex.Data.Form
import TraceIndex.Packed.Basic
import TraceIndex.Text.Utf8

namespace TraceIndex.Packed

def integer (n : Int) : Packed :=
  if 0 ≤ n then unsigned (UInt64.ofInt n) else signed (Int64.ofInt n)

def string (s : String) : Packed := text (Utf8.encode s)

def record (members : List (String × Packed)) : Packed :=
  map (members.map fun m => (string m.1, m.2))

def isNull : Packed → Bool
  | nil => true
  | _ => false

def integer? : Packed → Option Int
  | unsigned n => some n.toNat
  | signed n => some n.toInt
  | _ => none

def text? : Packed → Option String
  | text bytes | binary bytes => Utf8.decode? bytes
  | _ => none

/-- A list of small numbers may be written as binary data, and so may an empty list of any kind. -/
def list? : Packed → Option (List Packed)
  | array items => some items
  | binary bytes => some (bytes.map fun b => unsigned b.toUInt64)
  | _ => none

/-- The place of a name among others, where names may be written as text, as binary data or as
their place. -/
def named? (names : List String) : Packed → Option (Option Nat)
  | text bytes | binary bytes => some ((names.map Utf8.encode).idxOf? bytes)
  | unsigned n => some (if n.toNat < names.length then some n.toNat else none)
  | _ => none

def member? (names : List String) (e : Packed × Packed) : Option (Option Nat × Packed) :=
  (named? names e.1).map (·, e.2)

def fields? (names : List String) (least : Nat) : Packed → Option (List (Option Packed))
  | map entries => do Form.ofMembers? names.length (← entries.mapM (member? names))
  | array items => Form.ofItems? names.length least items
  | _ => none

def choice? (names : List String) : Packed → Option Nat
  | map [(name, nil)] => (named? names name).join
  | name => (named? names name).join

def form : Form Packed where
  null := nil
  integer := integer
  text := string
  list := array
  record := record
  isNull := isNull
  integer? := integer?
  text? := text?
  list? := list?
  fields? := fields?
  choice? := choice?

end TraceIndex.Packed
