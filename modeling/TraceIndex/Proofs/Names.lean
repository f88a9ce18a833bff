import TraceIndex.Proofs.Launch

namespace TraceIndex

def Statement.name? (st : Statement) : Option Entry :=
  match st.table with
  | .serviceNames =>
    match st.get? "service_name" with
    | some (.text service) => some (.serviceName service)
    | _ => none
  | .spanNames =>
    match st.get? "service_name", st.get? "span_name" with
    | some (.text service), some (.text name) => some (.spanName service name)
    | _, _ => none
  | _ => none

def Statement.mark? (st : Statement) : Option String := st.name?.bind Entry.mark?

namespace Writer

variable {w : Writer} {e : Entry} {drawn : RandomBuckets} {st : Statement}

theorem statement_of_error {failure : Failure} (hc : w.cells e = .error failure)
    (b : RandomBuckets) : w.statement e b = (.error failure, b) := by
  simp only [statement, hc]

theorem statement_fixed {cells : Int32 → List (String × Cell)} (hc : w.cells e = .ok cells)
    (h : isSpread e = false) (b : RandomBuckets) :
    w.statement e b = (.ok (w.bound e.table (cells 0)), b) := by
  simp [statement, hc, h]

theorem statement_drawn {cells : Int32 → List (String × Cell)} (hc : w.cells e = .ok cells)
    (h : isSpread e) (b : RandomBuckets) :
    w.statement e b = (.ok (w.bound e.table (cells b.draw.1)), b.draw.2) := by
  simp [statement, hc, h]

theorem cells_of_statement (h : (w.statement e drawn).1 = .ok st) :
    ∃ cells bucket, w.cells e = .ok cells ∧ st = w.bound e.table (cells bucket) := by
  cases hc : w.cells e with
  | error failure =>
    rw [statement_of_error hc] at h
    cases h
  | ok cells =>
    cases hspread : isSpread e with
    | false =>
      rw [statement_fixed hc hspread] at h
      exact ⟨cells, 0, rfl, (Except.ok.inj h).symm⟩
    | true =>
      rw [statement_drawn hc hspread] at h
      exact ⟨cells, drawn.draw.1, rfl, (Except.ok.inj h).symm⟩

theorem required_of_bind {α : Type} {field value : String} {rest : Except Failure α} {a : α}
    (h : (do required field value; rest) = .ok a) : rest = .ok a := by
  simp only [required] at h
  split at h
  · cases h
  · exact h

theorem statement_name? (h : (w.statement e drawn).1 = .ok st) :
    st.name? = if e.mark?.isSome then some e else none := by
  obtain ⟨cells, bucket, hc, rfl⟩ := cells_of_statement h
  cases e with
  | serviceName service =>
    cases required_of_bind hc
    rfl
  | spanName service name =>
    cases required_of_bind (required_of_bind hc)
    rfl
  | trace | byService | bySpanName | byAnnotationKey | byDuration => rfl

theorem statement_mark? (h : (w.statement e drawn).1 = .ok st) : st.mark? = e.mark? := by
  rw [Statement.mark?, statement_name? h]
  cases he : e.mark? with
  | none => rfl
  | some key => exact he

theorem cells_bound {cells : Int32 → List (String × Cell)} (h : w.cells e = .ok cells)
    (bucket : Int32) : e.table.columns.all (fun c => ((cells bucket).lookup c).isSome) := by
  cases e with
  | trace span ts key =>
    cases hc : w.codec.encode span with
    | error failure => simp [Writer.cells, hc, bind, Except.bind] at h
    | ok bytes =>
      simp only [Writer.cells, hc] at h
      cases h
      rfl
  | serviceName service =>
    cases required_of_bind h
    rfl
  | spanName service name =>
    cases required_of_bind (required_of_bind h)
    rfl
  | byService service ts id =>
    cases required_of_bind h
    rfl
  | bySpanName service name ts id =>
    cases required_of_bind (required_of_bind h)
    rfl
  | byAnnotationKey key ts id =>
    simp only [Writer.cells] at h
    split at h
    · cases h
    · cases h
      rfl
  | byDuration service name ts duration id =>
    cases required_of_bind h
    rfl

theorem mapM_of_all {α β : Type} {f : α → Option β} {l : List α} (h : ∀ a ∈ l, (f a).isSome) :
    ∃ r, l.mapM f = some r := by
  induction l with
  | nil => exact ⟨[], rfl⟩
  | cons a l ih =>
    obtain ⟨ha, hl⟩ := List.forall_mem_cons.mp h
    obtain ⟨b, hb⟩ := Option.isSome_iff_exists.mp ha
    obtain ⟨r, hr⟩ := ih hl
    exact ⟨b :: r, by simp [hb, hr]⟩

theorem statement_bound (h : (w.statement e drawn).1 = .ok st) :
    ∀ c ∈ st.table.columns, (st.get? c).isSome := by
  obtain ⟨cells, bucket, hc, rfl⟩ := cells_of_statement h
  exact List.all_eq_true.mp (cells_bound hc bucket)

theorem bound_validate {cells : Int32 → List (String × Cell)} (hc : w.cells e = .ok cells)
    (bucket : Int32) : (w.bound e.table (cells bucket)).validate = .ok () := by
  have hbound : ∀ c ∈ e.table.columns, ((w.bound e.table (cells bucket)).get? c).isSome :=
    List.all_eq_true.mp (cells_bound hc bucket)
  have hnone : (w.bound e.table (cells bucket)).insert.columns.find?
      (fun c => ((w.bound e.table (cells bucket)).get? c).isNone) = none := by
    apply List.find?_eq_none.mpr
    intro c hmem
    simpa using Option.isSome_iff_ne_none.mp (hbound c hmem)
  simp only [Statement.validate, hnone]
  cases hx : w.expiry.get e.table <;> simp [bound, insert, Expiry.binds, Expiry.bound?, hx]

theorem statement_validate (h : (w.statement e drawn).1 = .ok st) : st.validate = .ok () := by
  obtain ⟨cells, bucket, hc, rfl⟩ := cells_of_statement h
  exact bound_validate hc bucket

theorem execute_statement (h : (w.statement e drawn).1 = .ok st) {k : Keyspace}
    (hk : k.faults = []) : (k.execute st).1 = .ok () := by
  obtain ⟨key, hkey⟩ := mapM_of_all fun c hc => statement_bound h c (List.mem_append_left _ hc)
  have hrow : k.rowOf st = .ok ⟨key, st.payload, st.ttl <|> k.defaultTtl? st.table⟩ :=
    Keyspace.rowOf_eq_ok.mpr ⟨statement_validate h, by rw [hk]; rfl, key, hkey, rfl⟩
  rw [Keyspace.execute_of_ok hrow]

end Writer

namespace Span

def namesUnder (s : Span) (service : String) : List Entry :=
  .serviceName service :: if s.name = "" then [] else [.spanName service s.name]

def names (s : Span) : List Entry := s.services.flatMap s.namesUnder

def nameKeys (s : Span) : List String := s.names.filterMap Entry.mark?

variable (s : Span)

theorem indexEntries_names (service : String) (ts : Int64) :
    (s.indexEntries service ts).filter (·.mark?.isSome) = [] := by
  by_cases hname : s.name = "" <;> cases hd : s.duration <;>
    simp [indexEntries, isNamed, hname, hd, Entry.mark?]

theorem namesUnder_names (service : String) :
    (s.namesUnder service).filter (·.mark?.isSome) = s.namesUnder service := by
  by_cases hname : s.name = "" <;> simp [namesUnder, hname, Entry.mark?]

theorem serviceEntries_eq (service : String) :
    s.serviceEntries service = s.namesUnder service ++
      match s.timestamp with
      | none => []
      | some ts => s.indexEntries service ts := by
  by_cases hname : s.name = "" <;> cases ht : s.timestamp <;>
    simp [serviceEntries, namesUnder, isNamed, hname, ht]

theorem serviceEntries_names (service : String) :
    (s.serviceEntries service).filter (·.mark?.isSome) = s.namesUnder service := by
  rw [serviceEntries_eq, List.filter_append, namesUnder_names]
  cases s.timestamp with
  | none => simp
  | some ts => rw [indexEntries_names, List.append_nil]

theorem keyEntries_names : s.keyEntries.filter (·.mark?.isSome) = [] := by
  cases ht : s.timestamp <;> simp [keyEntries, ht, Entry.mark?]

theorem entries_names : s.entries.filter (·.mark?.isSome) = s.names := by
  have hservice : (s.services.flatMap s.serviceEntries).filter (·.mark?.isSome) = s.names := by
    rw [List.filter_flatMap]
    apply congrArg (List.flatMap · s.services)
    funext service
    exact s.serviceEntries_names service
  rw [entries, List.filter_append, List.filter_append, hservice, keyEntries_names,
    List.append_nil]
  rfl

theorem mem_names {e : Entry} : e ∈ s.names ↔ e ∈ s.entries ∧ e.mark?.isSome := by
  rw [← entries_names, List.mem_filter]

theorem mem_nameKeys {key : String} :
    key ∈ s.nameKeys ↔ ∃ e ∈ s.entries, e.mark? = some key := by
  simp only [nameKeys, List.mem_filterMap, mem_names]
  constructor
  · rintro ⟨e, ⟨he, -⟩, hk⟩
    exact ⟨e, he, hk⟩
  · rintro ⟨e, he, hk⟩
    exact ⟨e, ⟨he, by rw [hk]; rfl⟩, hk⟩

end Span

namespace Service

theorem mem_started {s : Service} {marks : Marks} {spans : List Span} {a : Attempt}
    (h : a ∈ s.started marks spans) :
    ∃ e ∈ entriesOf spans, ∃ drawn, a = ⟨(s.writer.statement e drawn).1, e.mark?⟩ := by
  rw [started, walk, (Desk.attempts_eq _ _ _ _).1] at h
  obtain ⟨e, he, hdrawn⟩ := Desk.mem_drafts h
  exact ⟨e, mem_of_mem_due he, hdrawn⟩

theorem mark?_of_started {s : Service} {marks : Marks} {spans : List Span} {a : Attempt}
    (ha : a ∈ s.started marks spans) {st : Statement} (hst : a.sent? = some st) :
    st.mark? = a.mark := by
  obtain ⟨e, -, drawn, rfl⟩ := mem_started ha
  exact Writer.statement_mark? (Attempt.sent?_eq_some.mp hst)

theorem execute_started {s : Service} {marks : Marks} {spans : List Span} {a : Attempt}
    (ha : a ∈ s.started marks spans) {st : Statement} (hst : a.sent? = some st) {k : Keyspace}
    (hk : k.faults = []) : (k.execute st).1 = .ok () := by
  obtain ⟨e, -, drawn, rfl⟩ := mem_started ha
  exact Writer.execute_statement (Attempt.sent?_eq_some.mp hst) hk

/-- A worker attempts at most one write for a mark. -/
theorem started_marks_nodup (s : Service) (marks : Marks) (spans : List Span) :
    ((s.started marks spans).filterMap (·.mark)).Nodup :=
  (Desk.keys_attempted ⟨marks, s.buckets⟩ s.writer s.clock (entriesOf spans)).1

theorem not_inForce_of_started {s : Service} {marks : Marks} {spans : List Span} {a : Attempt}
    (ha : a ∈ s.started marks spans) {key : String} (hkey : a.mark = some key) :
    ¬ marks.InForce s.clock key :=
  (Desk.keys_attempted ⟨marks, s.buckets⟩ s.writer s.clock (entriesOf spans)).2 key
    (List.mem_filterMap.mpr ⟨a, ha, hkey⟩)

theorem mem_entriesOf {spans : List Span} {e : Entry} :
    e ∈ entriesOf spans ↔ ∃ span ∈ spans, e ∈ span.normalize.entries := by
  rw [entriesOf, List.flatMap_map, List.mem_flatMap]

def nameKeysOf (spans : List Span) : List String :=
  (spans.map Span.normalize).flatMap Span.nameKeys

theorem mem_nameKeysOf {spans : List Span} {key : String} :
    key ∈ nameKeysOf spans ↔ ∃ e ∈ entriesOf spans, e.mark? = some key := by
  simp only [nameKeysOf, List.flatMap_map, List.mem_flatMap, mem_entriesOf, Span.mem_nameKeys]
  constructor
  · rintro ⟨span, hspan, e, he, hkey⟩
    exact ⟨e, ⟨span, hspan, he⟩, hkey⟩
  · rintro ⟨e, ⟨span, hspan, he⟩, hkey⟩
    exact ⟨span, hspan, e, he, hkey⟩

/-- A worker that is given a name attempts a write for its key, unless the key is in force. -/
theorem inForce_or_started {s : Service} {marks : Marks} {spans : List Span} {key : String}
    (h : key ∈ nameKeysOf spans) :
    marks.InForce s.clock key ∨ ∃ a ∈ s.started marks spans, a.mark = some key := by
  obtain ⟨e, he, hkey⟩ := mem_nameKeysOf.mp h
  exact Desk.inForce_or_attempted ⟨marks, s.buckets⟩ s.writer s.clock he hkey

end Service

end TraceIndex
