namespace TraceIndex

inductive Table
  | traces
  | serviceNames
  | spanNames
  | byService
  | bySpanName
  | byAnnotationKey
  | byDuration
  deriving DecidableEq, Repr

namespace Table

def all : List Table :=
  [traces, serviceNames, spanNames, byService, bySpanName, byAnnotationKey, byDuration]

def name : Table → String
  | traces => "traces"
  | serviceNames => "service_names"
  | spanNames => "span_names"
  | byService => "service_name_index"
  | bySpanName => "service_span_name_index"
  | byAnnotationKey => "annotations_index"
  | byDuration => "span_duration_index"

def ofName? (name : String) : Option Table := all.find? (·.name = name)

/-- The columns of the primary key. In `traces`, the span name is the uniqueness key. -/
def primaryKey : Table → List String
  | traces => ["trace_id", "ts", "span_name"]
  | serviceNames => ["service_name"]
  | spanNames => ["service_name", "bucket", "span_name"]
  | byService => ["service_name", "bucket", "ts"]
  | bySpanName => ["service_span_name", "ts"]
  | byAnnotationKey => ["annotation", "bucket", "ts"]
  | byDuration => ["service_name", "span_name", "bucket", "duration", "ts"]

def payload : Table → List String
  | traces => ["span"]
  | serviceNames | spanNames => []
  | byService | bySpanName | byAnnotationKey | byDuration => ["trace_id"]

def columns (t : Table) : List String := t.primaryKey ++ t.payload

def isFact (t : Table) : Bool := t = traces

instance : Ord Table := ⟨compareOn (all.idxOf ·)⟩

end Table

structure PerTable (α : Type) where
  traces : α
  serviceNames : α
  spanNames : α
  byService : α
  bySpanName : α
  byAnnotationKey : α
  byDuration : α
  deriving DecidableEq, Repr

namespace PerTable

variable {α β : Type}

def ofFn (f : Table → α) : PerTable α :=
  ⟨f .traces, f .serviceNames, f .spanNames, f .byService, f .bySpanName, f .byAnnotationKey,
    f .byDuration⟩

def get (p : PerTable α) : Table → α
  | .traces => p.traces
  | .serviceNames => p.serviceNames
  | .spanNames => p.spanNames
  | .byService => p.byService
  | .bySpanName => p.bySpanName
  | .byAnnotationKey => p.byAnnotationKey
  | .byDuration => p.byDuration

def set (p : PerTable α) (t : Table) (a : α) : PerTable α :=
  match t with
  | .traces => { p with traces := a }
  | .serviceNames => { p with serviceNames := a }
  | .spanNames => { p with spanNames := a }
  | .byService => { p with byService := a }
  | .bySpanName => { p with bySpanName := a }
  | .byAnnotationKey => { p with byAnnotationKey := a }
  | .byDuration => { p with byDuration := a }

@[simp] theorem get_ofFn (f : Table → α) (t : Table) : (ofFn f).get t = f t := by cases t <;> rfl

@[simp] theorem get_set (p : PerTable α) (t u : Table) (a : α) :
    (p.set t a).get u = if u = t then a else p.get u := by
  cases t <;> cases u <;> rfl

end PerTable

end TraceIndex
