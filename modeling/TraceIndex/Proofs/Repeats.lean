import TraceIndex.Proofs.Retries

namespace TraceIndex

namespace Row

/-- A row of a spread table in another bucket. The bucket is the second cell of its key. -/
def inBucket (r : Row) (bucket : Int32) : Row := { r with key := r.key.set 1 (.int bucket) }

def bucketless (r : Row) : Row := { r with key := r.key.eraseIdx 1 }

theorem bucketless_inBucket (r : Row) (bucket : Int32) :
    (r.inBucket bucket).bucketless = r.bucketless := by
  simp only [bucketless, inBucket, List.eraseIdx_set_eq]

end Row

namespace Writer

variable {w : Writer} {e : Entry} {k : Keyspace}

theorem rowOf_spread {cells : Int32 → List (String × Cell)} (hc : w.cells e = .ok cells)
    (h : isSpread e) (hk : k.faults = []) :
    ∃ row : Row, ∀ bucket,
      k.rowOf (w.bound e.table (cells bucket)) = .ok (row.inBucket bucket) := by
  have hrow : ∀ bucket key, (w.bound e.table (cells bucket)).primaryKey? = some key →
      k.rowOf (w.bound e.table (cells bucket)) =
        .ok ⟨key, (w.bound e.table (cells bucket)).payload,
          (w.expiry.get e.table).bound? <|> k.defaultTtl? e.table⟩ := by
    intro bucket key hkey
    exact Keyspace.rowOf_eq_ok.mpr ⟨bound_validate hc bucket, by rw [hk]; rfl, key, hkey, rfl⟩
  cases e with
  | byService service ts id =>
    cases required_of_bind hc
    exact ⟨⟨[.text service, .int 0, .timestamp ⟨ts⟩], [traceId id], _⟩,
      fun bucket => hrow bucket _ rfl⟩
  | byAnnotationKey key ts id =>
    simp only [Writer.cells] at hc
    split at hc
    · cases hc
    · cases hc
      exact ⟨⟨[.blob (Utf8.encode key), .int 0, .timestamp ⟨ts⟩], [traceId id], _⟩,
        fun bucket => hrow bucket _ rfl⟩
  | trace | serviceName | spanName | bySpanName | byDuration => cases h

theorem bucketless_statement (w : Writer) (e : Entry) (b : RandomBuckets) (hk : k.faults = []) :
    (k.stored (w.statement e b).1.toOption.toList e.table).map Row.bucketless =
      (w.rowFor? k e).toList.map Row.bucketless := by
  have hstored : ∀ {cells : Int32 → List (String × Cell)}, w.cells e = .ok cells → ∀ bucket,
      k.stored [w.bound e.table (cells bucket)] e.table =
        (k.rowOf (w.bound e.table (cells bucket))).toOption.toList := by
    intro cells _ bucket
    have htable : (w.bound e.table (cells bucket)).table = e.table := rfl
    cases hr : k.rowOf (w.bound e.table (cells bucket)) <;>
      simp [Keyspace.stored, htable, hr, Except.toOption]
  cases hc : w.cells e with
  | error failure =>
    simp [statement_of_error hc, rowFor?, plain?, hc, Except.toOption, Keyspace.stored]
  | ok cells =>
    have hfirst : w.rowFor? k e = (k.rowOf (w.bound e.table (cells 0))).toOption := by
      simp [rowFor?, plain?, hc, Except.toOption]
    cases hspread : isSpread e with
    | false =>
      rw [statement_fixed hc hspread, hfirst, ← hstored hc 0]
      rfl
    | true =>
      obtain ⟨row, hrow⟩ := rowOf_spread hc hspread hk
      rw [statement_drawn hc hspread, hfirst, hrow]
      change (k.stored [w.bound e.table (cells b.draw.1)] e.table).map _ = _
      rw [hstored hc, hrow]
      simp [Except.toOption, Row.bucketless_inBucket]

end Writer

namespace Desk

theorem bucketless_drafts (w : Writer) {k : Keyspace} (hk : k.faults = []) (t : Table)
    (l : List Entry) (b : RandomBuckets) :
    (k.stored ((drafts w l b).1.filterMap Attempt.sent?) t).map Row.bucketless =
      ((l.filter (·.table = t)).filterMap (w.rowFor? k)).map Row.bucketless := by
  induction l generalizing b with
  | nil => rfl
  | cons e l ih =>
    rw [sent_cons, Keyspace.stored_append, List.map_append, ih]
    by_cases ht : e.table = t
    · subst ht
      rw [w.bucketless_statement e b hk, List.filter_cons_of_pos (by simp)]
      cases hrow : w.rowFor? k e <;> simp [hrow]
    · have hnone : k.stored (w.statement e b).1.toOption.toList t = [] := by
        rw [Keyspace.stored, w.filter_statement ht]
        rfl
      rw [hnone, List.filter_cons_of_neg (by simpa using ht)]
      rfl

end Desk

namespace Service

variable {s t : Service} {worker : Nat} {marks : Marks} {spans : List Span} {table : Table}

theorem looked_done {b : Batch} {returned : List String}
    (hl : s.Looked worker marks spans b returned t) (hdone : b.state = .done (.ok ())) :
    (∀ st ∈ s.sends marks spans, (s.store.execute st).1 = .ok ()) ∧ returned = [] := by
  obtain ⟨hfine, hleft⟩ := Batch.of_state_ok hdone
  constructor
  · intro st hst
    obtain ⟨a, ha, hsent⟩ := List.mem_filterMap.mp hst
    rw [← s.flights_attempts s.issued (s.started marks spans)] at ha
    obtain ⟨f, hf, rfl⟩ := List.mem_map.mp ha
    obtain hmem | hok | ⟨hspoilt, -⟩ := hl.seen f hf
    · rw [hleft] at hmem
      cases hmem
    · exact executed_of_ok hf hok hsent
    · exact absurd hspoilt hfine
  · exact List.eq_nil_iff_forall_not_mem.mpr fun key hkey => hfine (hl.given key hkey).1

theorem looked_of_done (hired : s.workers[worker]? = some marks)
    (ht : Tending (s.accept worker spans) t)
    (hdone : t.batchState? s.batches.length = some (.done (.ok ()))) :
    (∀ st ∈ s.sends marks spans, (s.store.execute st).1 = .ok ()) ∧
      (s.Idle worker → t.workers[worker]? = (s.accept worker spans).workers[worker]?) := by
  obtain ⟨b, returned, hl⟩ := looked_tending hired ht
  obtain ⟨b', hb, hstate⟩ := batch_of_state hdone
  obtain rfl : b = b' := Option.some.inj (hl.batch.symm.trans hb)
  obtain ⟨hexecuted, rfl⟩ := looked_done hl hstate
  refine ⟨hexecuted, fun idle => ?_⟩
  rw [(hl.alone idle).1, marks_accept hired]
  rfl

theorem rows_repeated_plain (ungated : s.gate = []) (hired : s.workers[worker]? = some marks)
    (ht : Tending (s.accept worker spans) t)
    (hexecuted : ∀ st ∈ s.sends marks spans, (s.store.execute st).1 = .ok ())
    (hnames : table.isNames = false) (fixed : table.isSpread = false ∨ s.buckets.count = 1) :
    ((t.act (.setFaults [])).accept worker spans).store.rows.get table =
      t.store.rows.get table := by
  rw [rows_retried_plain ungated hired ht hnames fixed, rows_awaited ungated hired ht,
    Keyspace.stored_of_ok hexecuted]

theorem rows_repeated_names (ungated : s.gate = []) (hired : s.workers[worker]? = some marks)
    (ht : Tending (s.accept worker spans) t)
    (kept : t.workers[worker]? = (s.accept worker spans).workers[worker]?)
    (hnames : table.isNames) :
    ((t.act (.setFaults [])).accept worker spans).store.rows.get table =
      t.store.rows.get table := by
  rw [marks_accept hired] at kept
  have hdue := @due_again s marks spans [] fun _ hkey => absurd hkey List.not_mem_nil
  have hnone :
      s.store.clearFaults.stored (t.sends (s.walk marks spans).2.marks spans) table = [] := by
    rw [stored_again hired ht _ (.inl (Table.not_isSpread hnames))]
    apply List.filterMap_eq_nil_iff.mpr
    intro e he
    obtain ⟨he, htable⟩ := List.mem_filter.mp he
    rw [← of_decide_eq_true htable, Entry.isNames_table] at hnames
    obtain ⟨key, hkey⟩ := Option.isSome_iff_exists.mp hnames
    have hback := (List.mem_filter.mp (hdue ▸ he)).2
    simp [hkey] at hback
  rw [rows_again ungated hired ht kept, hnone]
  rfl

theorem bucketless_sends (s : Service) (marks : Marks) (spans : List Span) {k : Keyspace}
    (hk : k.faults = []) (hnames : table.isNames = false) :
    (k.stored (s.sends marks spans) table).map Row.bucketless =
      (((entriesOf spans).filter (·.table = table)).filterMap
        (s.writer.rowFor? k)).map Row.bucketless := by
  rw [sends, started, walk, (Desk.attempts_eq _ _ _ _).1, Desk.bucketless_drafts _ hk,
    due_table hnames]

/-- But for their buckets, both passes store the same rows. -/
theorem bucketless_told (ungated : s.gate = []) (hired : s.workers[worker]? = some marks)
    (ht : Tending (s.accept worker spans) t)
    (hexecuted : ∀ st ∈ s.sends marks spans, (s.store.execute st).1 = .ok ())
    (hnames : table.isNames = false) :
    let cleared := t.act (.setFaults [])
    (cleared.store.stored (cleared.told (.accept worker spans)) table).map Row.bucketless =
      (s.store.stored (s.told (.accept worker spans)) table).map Row.bucketless := by
  intro cleared
  obtain ⟨again, hagain⟩ := hired_tending (marks_accept hired spans) ht
  obtain ⟨hwriter, -, -, -, -⟩ := frame_awaited hired ht
  rw [told_again ungated hired ht hagain, stored_cleared hired ht, told_accept ungated hired,
    Keyspace.stored_of_ok hexecuted, bucketless_sends _ _ _ rfl hnames,
    bucketless_sends _ _ _ rfl hnames, hwriter]

/-- What a retry without faults makes of a batch that has succeeded. A table stays as it is exactly
if what the retry leaves there stands there already. Besides names, both passes store the same rows
in the same order, but for the buckets, which each of them draws anew: so all rows with fixed
buckets stay as they are. Names do unless their keys were given back in the meantime, which happens
only to a worker with other writes in flight. -/
theorem retry_unchanged_iff (s : Service) (worker : Nat) (marks : Marks) (spans : List Span)
    (t : Service) (ungated : s.gate = []) (hired : s.workers[worker]? = some marks)
    (awaited : Tending (s.accept worker spans) t)
    (succeeded : t.batchState? s.batches.length = some (.done (.ok ()))) :
    let cleared := t.act (.setFaults [])
    let retried := cleared.accept worker spans
    let first := s.store.stored (s.told (.accept worker spans))
    let second := cleared.store.stored (cleared.told (.accept worker spans))
    (∀ table, retried.store.rows.get table = t.store.rows.get table ↔
      ∀ row ∈ Rows.empty.lay (second table), row ∈ t.store.rows.get table) ∧
    (∀ table, table.isNames = false →
      (second table).map Row.bucketless = (first table).map Row.bucketless) ∧
    (∀ table, table.isNames = false → table.isSpread = false ∨ s.buckets.count = 1 →
      retried.store.rows.get table = t.store.rows.get table) ∧
    (t.workers[worker]? = (s.accept worker spans).workers[worker]? →
      ∀ table, table.isNames → retried.store.rows.get table = t.store.rows.get table) ∧
    (s.Idle worker → t.workers[worker]? = (s.accept worker spans).workers[worker]?) := by
  intro cleared retried first second
  obtain ⟨hexecuted, hkept⟩ := looked_of_done hired awaited succeeded
  refine ⟨fun table => ?_, fun table => ?_, fun table => ?_, fun kept table => ?_, hkept⟩
  · have hrows : retried.store.rows.get table =
        (t.store.rows.get table).lay (second table) := rows_told cleared worker spans table
    rw [hrows]
    exact Rows.lay_eq_self_iff
  · exact bucketless_told ungated hired awaited hexecuted
  · exact rows_repeated_plain ungated hired awaited hexecuted
  · exact rows_repeated_names ungated hired awaited kept

theorem retry_unchanged_iff_web :
    let s := zipkin.run [.hire]
    let marks := Marks.fresh zipkin.settings.dedupMillis zipkin.clock
    let spans := [{ Span.of "web" "get" with timestamp := some 1 }]
    let t := (s.accept 0 spans).settle 0
    let retried := (t.act (.setFaults [])).accept 0 spans
    s.gate = [] ∧ s.workers[0]? = some marks ∧
    Tending (s.accept 0 spans) t ∧ t.batchState? 0 = some (.done (.ok ())) ∧
    retried.store.rows.get .traces = t.store.rows.get .traces ∧
    retried.store.rows.get .serviceNames = t.store.rows.get .serviceNames := by
  intro s marks spans t retried
  have hired : s.workers[0]? = some marks := rfl
  have awaited : Tending (s.accept 0 spans) t := tending_settle 0 _
  have succeeded : t.batchState? 0 = some (.done (.ok ())) := by decide +kernel
  obtain ⟨-, -, plain, names, kept⟩ :=
    retry_unchanged_iff s 0 marks spans t rfl hired awaited succeeded
  have idle : s.Idle 0 := fun b hb => absurd hb List.not_mem_nil
  exact ⟨rfl, hired, awaited, succeeded, plain .traces rfl (.inl rfl),
    names (kept idle) .serviceNames rfl⟩

/-- A second pass draws other buckets, and leaves the rows of the first where they are. -/
theorem retry_adds_rows :
    let spans := [{ Span.of "web" "get" with timestamp := some 1 }]
    let t := (zipkin.run [.hire, .accept 0 spans]).settle 0
    let retried := ((t.act (.setFaults [])).accept 0 spans).settle 1
    Setup.zipkin.openService = .ok zipkin ∧
    t.batchState? 0 = some (.done (.ok ())) ∧ retried.batchState? 1 = some (.done (.ok ())) ∧
    (t.store.rows.get .byAnnotationKey).length = 2 ∧
    (retried.store.rows.get .byAnnotationKey).length = 4 :=
  ⟨zipkin_opened, by decide +kernel, by decide +kernel, by decide +kernel, by decide +kernel⟩

end Service

end TraceIndex
