import TraceIndex.Store.Cell
import TraceIndex.Store.Table

namespace TraceIndex

structure Row where
  key : List Cell
  payload : List (String × Cell)
  ttl : Option UInt32
  deriving DecidableEq, Repr

namespace Row

def column? (r : Row) (table : Table) (column : String) : Option Cell :=
  match (table.primaryKey.zip r.key).lookup column with
  | some cell => some cell
  | none => r.payload.lookup column

end Row

/-- The rows of a table, in ascending order of their keys. -/
structure Rows where
  toList : List Row
  ordered : toList.Pairwise fun r s => compare r.key s.key = .lt

namespace Rows

instance : Membership Row Rows := ⟨fun rows r => r ∈ rows.toList⟩

instance (row : Row) (rows : Rows) : Decidable (row ∈ rows) :=
  inferInstanceAs (Decidable (row ∈ rows.toList))

instance (rows : Rows) (p : Row → Prop) [DecidablePred p] : Decidable (∀ row ∈ rows, p row) :=
  inferInstanceAs (Decidable (∀ row ∈ rows.toList, p row))

instance : CoeOut Rows (List Row) := ⟨toList⟩

instance : GetElem? Rows Nat Row fun rows i => i < rows.toList.length where
  getElem rows i h := rows.toList[i]
  getElem? rows i := rows.toList[i]?

def empty : Rows := ⟨[], .nil⟩

def length (rows : Rows) : Nat := rows.toList.length

def keys (rows : Rows) : List (List Cell) := rows.toList.map (·.key)

def find? (rows : Rows) (key : List Cell) : Option Row := rows.toList.find? (·.key = key)

/-- The row takes its place in the order, or that of the row with its key. -/
def place (r : Row) : List Row → List Row
  | [] => [r]
  | s :: rest =>
    match compare r.key s.key with
    | .lt => r :: s :: rest
    | .eq => r :: rest
    | .gt => s :: place r rest

theorem mem_of_mem_place {r s : Row} {rows : List Row} (h : s ∈ place r rows) :
    s = r ∨ s ∈ rows := by
  induction rows with
  | nil => exact .inl (List.mem_singleton.mp h)
  | cons first rest ih =>
    simp only [place] at h
    split at h
    · exact List.mem_cons.mp h
    · exact (List.mem_cons.mp h).imp_right (List.mem_cons_of_mem _)
    · obtain rfl | h := List.mem_cons.mp h
      · exact .inr List.mem_cons_self
      · exact (ih h).imp_right (List.mem_cons_of_mem _)

theorem ordered_place {rows : List Row}
    (h : rows.Pairwise fun r s => compare r.key s.key = .lt) (r : Row) :
    (place r rows).Pairwise fun r s => compare r.key s.key = .lt := by
  induction rows with
  | nil => exact List.pairwise_singleton ..
  | cons first rest ih =>
    obtain ⟨hfirst, hrest⟩ := List.pairwise_cons.mp h
    simp only [place]
    split
    · rename_i hlt
      refine List.pairwise_cons.mpr ⟨fun s hs => ?_, h⟩
      obtain rfl | hs := List.mem_cons.mp hs
      · exact hlt
      · exact Std.TransCmp.lt_trans hlt (hfirst s hs)
    · rename_i heq
      exact List.pairwise_cons.mpr
        ⟨fun s hs => Std.TransCmp.lt_of_eq_of_lt heq (hfirst s hs), hrest⟩
    · rename_i hgt
      refine List.pairwise_cons.mpr ⟨fun s hs => ?_, ih hrest⟩
      obtain rfl | hs := mem_of_mem_place hs
      · exact Std.OrientedCmp.lt_of_gt hgt
      · exact hfirst s hs

def upsert (rows : Rows) (r : Row) : Rows := ⟨place r rows.toList, ordered_place rows.ordered r⟩

theorem mem_of_mem_upsert {r s : Row} {rows : Rows} (h : s ∈ rows.upsert r) : s = r ∨ s ∈ rows :=
  mem_of_mem_place h

end Rows

end TraceIndex
