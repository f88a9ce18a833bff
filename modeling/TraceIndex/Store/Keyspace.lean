import TraceIndex.Store.Options
import TraceIndex.Store.Row
import TraceIndex.Store.Statement

namespace TraceIndex

/-- Why a statement fails, if this fault meets it. -/
abbrev Fault := Statement → Option StoreFailure

namespace Fault

def onTable (table : Table) (failure : StoreFailure) : Fault := fun s =>
  if s.table = table then some failure else none

/-- Meets the statements that bind a column to exactly this value, in one table or in all. -/
def onValue (column : String) (cell : Cell) (table : Option Table) (failure : StoreFailure) :
    Fault := fun s =>
  if table.all (s.table = ·) ∧ s.get? column = some cell then some failure else none

end Fault

/-- Every key has a cell for each column of its table. -/
def PerTable.Complete (rows : PerTable Rows) : Prop :=
  ∀ t, ∀ row ∈ rows.get t, row.key.length = t.primaryKey.length

theorem PerTable.Complete.upsert {rows : PerTable Rows} (h : rows.Complete) {t : Table} {row : Row}
    (hrow : row.key.length = t.primaryKey.length) :
    (rows.set t ((rows.get t).upsert row)).Complete := by
  intro u r hr
  rw [get_set] at hr
  split at hr
  · rename_i hu
    subst hu
    obtain rfl | hr := Rows.mem_of_mem_upsert hr
    · exact hrow
    · exact h u r hr
  · exact h u r hr

/-- A keyspace held in memory: rows, the log of all statements, and faults to fail them with. -/
structure Keyspace where
  name : String
  options : PerTable Options
  replication : Options
  rows : PerTable Rows
  complete : rows.Complete
  log : List Statement
  faults : List Fault
  applied : Nat
  failed : Nat

namespace Keyspace

def freshOptions : Options :=
  .ofList [(Options.defaultTtl, "0"),
    (Options.compactionClass, "org.apache.cassandra.db.compaction.SizeTieredCompactionStrategy")]

def freshReplication : Options :=
  .ofList [("class", "org.apache.cassandra.locator.SimpleStrategy"), ("replication_factor", "3")]

def noRows : PerTable Rows := .ofFn fun _ => .empty

theorem not_mem_noRows {t : Table} {row : Row} : row ∉ noRows.get t := by
  rw [noRows, PerTable.get_ofFn]
  exact List.not_mem_nil

theorem complete_noRows : noRows.Complete := fun _ _ hrow => absurd hrow not_mem_noRows

def named (name : String) : Keyspace where
  name
  options := .ofFn fun _ => freshOptions
  replication := freshReplication
  rows := noRows
  complete := complete_noRows
  log := []
  faults := []
  applied := 0
  failed := 0

def defaultName : String := "zipkin"

def setOptions (k : Keyspace) (table : Table) (options : Options) : Keyspace :=
  { k with options := k.options.set table options }

def setOptionOnAll (k : Keyspace) (key value : String) : Keyspace :=
  { k with options := .ofFn fun t => (k.options.get t).set key value }

def addFault (k : Keyspace) (fault : Fault) : Keyspace := { k with faults := k.faults ++ [fault] }

def clearFaults (k : Keyspace) : Keyspace := { k with faults := [] }

/-- Drops the rows, the log and the counts, and keeps the options and the faults. -/
def clear (k : Keyspace) : Keyspace :=
  { k with rows := noRows, complete := complete_noRows, log := [], applied := 0, failed := 0 }

def defaultTtl? (k : Keyspace) (table : Table) : Option UInt32 :=
  match (k.options.get table).defaultTtlSeconds table with
  | .ok n => if 0 < n then some n else none
  | .error _ => none

/-- The row that a statement stores, or why it stores none. The first fault that meets the
statement decides. -/
def rowOf (k : Keyspace) (s : Statement) : Except StoreFailure Row := do
  s.validate
  match k.faults.findSome? (· s) with
  | some failure => throw failure
  | none =>
    match s.primaryKey? with
    | none =>
      throw (.invalidValue (",".intercalate s.table.primaryKey) "primary key not bound")
    | some key => return ⟨key, s.payload, s.ttl <|> k.defaultTtl? s.table⟩

theorem rowOf_eq_ok {k : Keyspace} {s : Statement} {row : Row} :
    k.rowOf s = .ok row ↔ s.validate = .ok () ∧ k.faults.findSome? (· s) = none ∧
      ∃ key, s.primaryKey? = some key ∧
        row = ⟨key, s.payload, s.ttl <|> k.defaultTtl? s.table⟩ := by
  constructor
  · intro h
    simp only [rowOf, bind, Except.bind] at h
    split at h
    · cases h
    · rename_i hvalid
      split at h
      · cases h
      · rename_i hfaults
        split at h
        · cases h
        · rename_i key hkey
          exact ⟨hvalid, hfaults, key, hkey, (Except.ok.inj h).symm⟩
  · rintro ⟨hvalid, hfaults, key, hkey, rfl⟩
    simp only [rowOf, hvalid, hfaults, hkey]
    rfl

theorem key_of_rowOf {k : Keyspace} {s : Statement} {row : Row} (h : k.rowOf s = .ok row) :
    s.primaryKey? = some row.key := by
  obtain ⟨-, -, key, hkey, rfl⟩ := rowOf_eq_ok.mp h
  exact hkey

theorem length_of_rowOf {k : Keyspace} {s : Statement} {row : Row} (h : k.rowOf s = .ok row) :
    row.key.length = s.table.primaryKey.length :=
  Statement.length_primaryKey? (key_of_rowOf h)

def store (k : Keyspace) (t : Table) (row : Row) (h : row.key.length = t.primaryKey.length) :
    Keyspace :=
  { k with
    rows := k.rows.set t ((k.rows.get t).upsert row)
    complete := k.complete.upsert h
    applied := k.applied + 1 }

def execute (k : Keyspace) (s : Statement) : Except StoreFailure Unit × Keyspace :=
  let logged := { k with log := k.log ++ [s] }
  match h : k.rowOf s with
  | .ok row => (.ok (), logged.store s.table row (length_of_rowOf h))
  | .error failure => (.error failure, { logged with failed := k.failed + 1 })

def statementsFor (k : Keyspace) (table : Table) : List Statement :=
  k.log.filter (·.table = table)

def get? (k : Keyspace) (table : Table) (key : List Cell) : Option Row :=
  (k.rows.get table).find? key

end Keyspace

end TraceIndex
