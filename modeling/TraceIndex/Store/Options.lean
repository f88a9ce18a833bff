import TraceIndex.Store.Failure
import TraceIndex.Store.Table
import TraceIndex.Text.Blank
import TraceIndex.Text.Decimal
import TraceIndex.Text.Quoted

namespace TraceIndex

structure Options where
  entries : List (String × String)
  deriving DecidableEq, Repr

namespace Options

def empty : Options := ⟨[]⟩

def get? (o : Options) (key : String) : Option String := o.entries.lookup key

def erase (o : Options) (key : String) : Options := ⟨o.entries.filter (·.1 ≠ key)⟩

def set (o : Options) (key value : String) : Options := ⟨(o.erase key).entries ++ [(key, value)]⟩

def ofList (entries : List (String × String)) : Options :=
  entries.foldl (fun o e => o.set e.1 e.2) empty

def defaultTtl : String := "default_time_to_live"

def compactionClass : String := "compaction.class"

/-- A number of seconds: decimal digits that fit 32 bits, after at most one plus sign. -/
def seconds? (cs : List Char) : Option UInt32 := do
  let digits := match cs with
    | '+' :: rest => rest
    | _ => cs
  let n ← Text.digits? digits
  if n < UInt32.size then some (UInt32.ofNat n) else none

/-- The table's own expiry in seconds, where zero is none. A table that does not tell it is an
error: rows would be leaked or would expire twice. -/
def defaultTtlSeconds (o : Options) (table : Table) : Except StoreFailure UInt32 :=
  match o.get? defaultTtl with
  | none => .error (.metadata (table.name ++ " has no " ++ defaultTtl))
  | some raw =>
    match seconds? (Text.trim raw.toList) with
    | some n => .ok n
    | none =>
      .error (.metadata (table.name ++ "." ++ defaultTtl ++ " is not a number of seconds: " ++
        Text.quoted raw))

def compaction? (o : Options) : Option String := o.get? compactionClass

end Options

end TraceIndex
