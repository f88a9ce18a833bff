import TraceIndex.Store.Schema

namespace TraceIndex

/-- How the rows of a table expire: by the table's own default, or by what each statement
binds. -/
inductive Expiry
  | serverDefault (seconds : UInt32)
  | explicit (seconds : UInt32)
  deriving DecidableEq, Repr

namespace Expiry

def seconds : Expiry → UInt32
  | serverDefault n => n
  | explicit n => n

def bound? : Expiry → Option UInt32
  | serverDefault _ => none
  | explicit n => some n

def binds (e : Expiry) : Bool := e.bound?.isSome

end Expiry

abbrev ExpiryPolicy := PerTable Expiry

namespace ExpiryPolicy

def secondsFor (span index : UInt32) (table : Table) : UInt32 :=
  if table.isFact then span else index

def explicit (span index : UInt32) : ExpiryPolicy := .ofFn fun t => .explicit (secondsFor span index t)

def ofDefault (span index : UInt32) (table : Table) (default : UInt32) : Expiry :=
  if 0 < default then .serverDefault default else .explicit (secondsFor span index table)

def resolveTable (m : Metadata) (span index : UInt32) (table : Table) :
    Except StoreFailure Expiry := do
  let options ← m.options table
  let default ← options.defaultTtlSeconds table
  return ofDefault span index table default

/-- The tables are read in their order, and the first that does not tell its default decides. -/
def resolve (m : Metadata) (span index : UInt32) : Except StoreFailure ExpiryPolicy := do
  let read := resolveTable m span index
  return {
    traces := ← read .traces
    serviceNames := ← read .serviceNames
    spanNames := ← read .spanNames
    byService := ← read .byService
    bySpanName := ← read .bySpanName
    byAnnotationKey := ← read .byAnnotationKey
    byDuration := ← read .byDuration }

end ExpiryPolicy

end TraceIndex
