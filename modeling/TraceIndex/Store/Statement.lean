import TraceIndex.Store.Cell
import TraceIndex.Store.Failure
import TraceIndex.Store.Table

namespace TraceIndex

/-- An insert of every column of a table, which carries an expiry of its own or leaves it to the
table. -/
structure Insert where
  name : String
  table : Table
  bindsTtl : Bool
  deriving DecidableEq, Repr

namespace Insert

def ttlMarker : String := "ttl_"

def columns (i : Insert) : List String := i.table.columns

def head (i : Insert) : String :=
  "INSERT INTO " ++ i.table.name ++ " (" ++ ",".intercalate i.columns ++ ") VALUES ("

def marker (column : String) : String := ":" ++ column

def query (i : Insert) : String :=
  i.head ++ ",".intercalate (i.columns.map marker) ++ ")" ++
    if i.bindsTtl then " USING TTL " ++ marker ttlMarker else ""

end Insert

structure Statement where
  insert : Insert
  values : List (String × Cell)
  ttl : Option UInt32
  deriving DecidableEq, Repr

namespace Statement

def ofInsert (insert : Insert) : Statement := ⟨insert, [], none⟩

def get? (s : Statement) (column : String) : Option Cell := s.values.lookup column

/-- The last value bound to a column is the one that it has. -/
def bind (s : Statement) (column : String) (cell : Cell) : Statement :=
  { s with values := (column, cell) :: s.values }

def table (s : Statement) : Table := s.insert.table

/-- Whether every column is bound, and an expiry exactly if the insert carries one. -/
def validate (s : Statement) : Except StoreFailure Unit :=
  match s.insert.columns.find? fun c => (s.get? c).isNone with
  | some c => .error (.invalidValue c ("not bound in " ++ s.insert.name))
  | none =>
    match s.insert.bindsTtl, s.ttl with
    | true, none => .error (.invalidValue Insert.ttlMarker (s.insert.name ++ " requires a ttl"))
    | false, some _ =>
      .error (.invalidValue Insert.ttlMarker (s.insert.name ++ " uses the table default ttl"))
    | _, _ => .ok ()

def primaryKey? (s : Statement) : Option (List Cell) := s.table.primaryKey.mapM s.get?

theorem length_of_mapM {f : String → Option Cell} {columns : List String} {cells : List Cell}
    (h : columns.mapM f = some cells) : cells.length = columns.length := by
  induction columns generalizing cells with
  | nil =>
    cases h
    rfl
  | cons c columns ih =>
    rw [List.mapM_cons] at h
    obtain ⟨first, -, h⟩ := Option.bind_eq_some_iff.mp h
    obtain ⟨rest, hrest, h⟩ := Option.bind_eq_some_iff.mp h
    cases h
    rw [List.length_cons, List.length_cons, ih hrest]

theorem length_primaryKey? {s : Statement} {key : List Cell} (h : s.primaryKey? = some key) :
    key.length = s.table.primaryKey.length :=
  length_of_mapM h

def payload (s : Statement) : List (String × Cell) :=
  s.table.payload.filterMap fun c => (s.get? c).map (c, ·)

def literalOrMarker (s : Statement) (column : String) : String :=
  match s.get? column with
  | some cell => cell.literal
  | none => Insert.marker column

def ttlText (s : Statement) : String :=
  if s.insert.bindsTtl then
    " USING TTL " ++
      match s.ttl with
      | some n => Text.decimal n.toNat
      | none => Insert.marker Insert.ttlMarker
  else ""

def render (s : Statement) : String :=
  s.insert.head ++ ",".intercalate (s.insert.columns.map s.literalOrMarker) ++ ")" ++ s.ttlText

end Statement

end TraceIndex
