import TraceIndex.Proofs.Passes

namespace TraceIndex

namespace Writer

/-- The row that a store keeps for an entry, in the first bucket if it is spread. -/
def rowFor? (w : Writer) (k : Keyspace) (e : Entry) : Option Row :=
  (w.plain? e).bind fun st => (k.rowOf st).toOption

variable {w : Writer} {k : Keyspace} {e e' : Entry} {t : Table} {row row' : Row}

theorem rowFor?_eq_some (h : w.rowFor? k e = some row) :
    ∃ st, w.plain? e = some st ∧ st.table = e.table ∧ st.ttl = (w.expiry.get e.table).bound? ∧
      k.rowOf st = .ok row := by
  obtain ⟨st, hst, hrow⟩ := Option.bind_eq_some_iff.mp h
  obtain ⟨cells, -, rfl⟩ := Option.map_eq_some_iff.mp hst
  exact ⟨_, hst, rfl, rfl, toOption_eq_some.mp hrow⟩

theorem eq_of_names (ht : t.isNames) (he : e.table = t) (he' : e'.table = t)
    (h : w.rowFor? k e = some row) (h' : w.rowFor? k e' = some row') (hkey : row.key = row'.key) :
    row = row' := by
  have hpayload : ∀ st : Statement, st.table = t → st.payload = [] := by
    intro st hst
    cases t with
    | serviceNames | spanNames => simp [Statement.payload, hst, Table.payload]
    | traces | byService | bySpanName | byAnnotationKey | byDuration => cases ht
  obtain ⟨st, -, htable, httl, hrow⟩ := rowFor?_eq_some h
  obtain ⟨st', -, htable', httl', hrow'⟩ := rowFor?_eq_some h'
  rw [he] at htable httl
  rw [he'] at htable' httl'
  obtain ⟨-, -, key, -, rfl⟩ := Keyspace.rowOf_eq_ok.mp hrow
  obtain ⟨-, -, key', -, rfl⟩ := Keyspace.rowOf_eq_ok.mp hrow'
  simp only at hkey
  rw [hkey, hpayload st htable, hpayload st' htable', httl, httl', htable, htable']

end Writer

namespace Desk

theorem stored_drafts (w : Writer) (k : Keyspace) (l : List Entry) {b : RandomBuckets} {t : Table}
    (h : t.isSpread = false ∨ b.count = 1) :
    k.stored ((drafts w l b).1.filterMap Attempt.sent?) t =
      (l.filter (·.table = t)).filterMap (w.rowFor? k) := by
  rw [Keyspace.stored, drafts_table w l h, List.filterMap_filterMap]
  rfl

end Desk

namespace Service

variable {s t : Service} {worker : Nat} {marks : Marks} {spans : List Span}

def sends (s : Service) (marks : Marks) (spans : List Span) : List Statement :=
  (s.started marks spans).filterMap Attempt.sent?

theorem rows_told (s : Service) (worker : Nat) (spans : List Span) (table : Table) :
    (s.accept worker spans).store.rows.get table =
      (s.store.rows.get table).lay (s.store.stored (s.told (.accept worker spans)) table) := by
  cases h : s.workers[worker]? with
  | none =>
    rw [told_of_log (by rw [act, accept_of_none h]), accept_of_none h]
    rfl
  | some marks =>
    rw [told, act, accept_store h, Keyspace.tellAll_log, List.drop_left, Keyspace.rows_tellAll]

theorem told_accept (ungated : s.gate = []) (h : s.workers[worker]? = some marks)
    (spans : List Span) : s.told (.accept worker spans) = s.sends marks spans := by
  rw [told, act, (accept_passes h spans).1, List.drop_left, ungated, sends]
  simp

theorem rows_accept (ungated : s.gate = []) (h : s.workers[worker]? = some marks)
    (spans : List Span) (table : Table) :
    (s.accept worker spans).store.rows.get table =
      (s.store.rows.get table).lay (s.store.stored (s.sends marks spans) table) := by
  rw [rows_told, told_accept ungated h]

theorem stored_sends (k : Keyspace) {table : Table}
    (h : table.isSpread = false ∨ s.buckets.count = 1) :
    k.stored (s.sends marks spans) table =
      ((due Entry.mark? (marks.refresh s.clock).marked (entriesOf spans)).filter
        (·.table = table)).filterMap (s.writer.rowFor? k) := by
  rw [sends, started, walk, (Desk.attempts_eq _ _ _ _).1]
  exact Desk.stored_drafts s.writer k _ h

/-- In a table without names, and with fixed buckets, any pass stores the same. -/
theorem stored_plain (k : Keyspace) {table : Table} (hnames : table.isNames = false)
    (h : table.isSpread = false ∨ s.buckets.count = 1) :
    k.stored (s.sends marks spans) table =
      ((entriesOf spans).filter (·.table = table)).filterMap (s.writer.rowFor? k) := by
  rw [stored_sends k h, due_table hnames]

theorem flight_of_due {e : Entry}
    (he : e ∈ due Entry.mark? (marks.refresh s.clock).marked (entriesOf spans)) :
    ∃ f ∈ s.flights s.issued (s.started marks spans), ∃ drawn,
      f.attempt = ⟨(s.writer.statement e drawn).1, e.mark?⟩ := by
  obtain ⟨drawn, hdraft⟩ := Desk.exists_draft s.writer he s.buckets
  have hstarted : ⟨(s.writer.statement e drawn).1, e.mark?⟩ ∈ s.started marks spans := by
    rw [started, walk, (Desk.attempts_eq _ _ _ _).1]
    exact hdraft
  rw [← s.flights_attempts s.issued (s.started marks spans)] at hstarted
  obtain ⟨f, hf, hattempt⟩ := List.mem_map.mp hstarted
  exact ⟨f, hf, drawn, hattempt⟩

theorem executed_of_ok {f : Flight} (hf : f ∈ s.flights s.issued (s.started marks spans))
    (hok : f.outcome? = some (.ok ())) {st : Statement} (hst : f.attempt.sent? = some st) :
    (s.store.execute st).1 = .ok () := by
  obtain ⟨-, -, hreply⟩ := Flight.outcome?_eq_ok.mp hok
  obtain ⟨k, a, -, rfl⟩ := mem_flights hf
  obtain ⟨st', hdirect, hexecuted⟩ := Option.map_eq_some_iff.mp hreply
  have hsent : a.sent? = some st' := (Option.filter_eq_some_iff.mp hdirect).1
  rwa [← Option.some.inj (hsent.symm.trans hst)]

theorem accept_succeeds (ungated : s.gate = []) (faultless : s.store.faults = [])
    (h : s.workers[worker]? = some marks)
    (sendable : ∀ a ∈ s.started marks spans, ∃ st, a.statement = .ok st) :
    ((s.accept worker spans).settle s.batches.length).batchState? s.batches.length =
      some (.done (.ok ())) := by
  let flights := s.flights s.issued (s.started marks spans)
  have hanswers : Batch.Answers flights ([] ++ []) :=
    ⟨by rw [flights_tickets]; exact List.nodup_range', .nil,
      fun _ _ hticket => absurd hticket List.not_mem_nil⟩
  have hb : (s.accept worker spans).batches[s.batches.length]? = some (.ofFlights worker flights) :=
    (looked_accept h).batch
  have hstate := (Batch.underway_settled worker flights []).state hanswers
  rw [Batch.settled_of_ready rfl] at hstate
  rw [batchState?, getElem?_settle hb, Option.map_some]
  refine congrArg some (hstate.trans ((Batch.verdict_outcomes_ok hanswers).mpr ?_))
  intro f hf
  obtain ⟨k, a, ha, rfl⟩ := mem_flights hf
  obtain ⟨st, hst⟩ := sendable a (List.mem_of_getElem? ha)
  have hsent : a.sent? = some st := Attempt.sent?_eq_some.mpr hst
  have hexecuted := execute_started (List.mem_of_getElem? ha) hsent faultless
  refine Flight.outcome?_eq_ok.mpr ⟨st, hst, ?_⟩
  simp [Flight.after, flight, direct?, hsent, ungated, Option.filter, hexecuted]

theorem accept_settles (ungated : s.gate = []) (h : s.workers[worker]? = some marks)
    (spans : List Span) :
    ∃ b outcome, ((s.accept worker spans).settle s.batches.length).batches[s.batches.length]? =
      some b ∧ b.outstanding = [] ∧ b.state = .done outcome := by
  let flights := s.flights s.issued (s.started marks spans)
  have hknown : ∀ f ∈ flights, f.isKnown :=
    known_of_direct fun st _ => by rw [ungated]; exact List.not_mem_nil
  have hleft : (Batch.ofFlights worker flights).settled.outstanding = [] := by
    simpa [Batch.settled, Batch.outstanding, Batch.ofFlights] using hknown
  obtain ⟨outcome, hdone⟩ : ∃ outcome,
      (Batch.ofFlights worker flights).settled.state = .done outcome := by
    cases hfailure : (Batch.ofFlights worker flights).settled.failure with
    | some first => exact ⟨_, Batch.state_of_failure _ hfailure⟩
    | none =>
      obtain ⟨hready, hwaiting⟩ := List.append_eq_nil_iff.mp hleft
      refine ⟨.ok (), ?_⟩
      simp only [Batch.state, hfailure, hready, hwaiting]
      rfl
  exact ⟨_, outcome, getElem?_settle (looked_accept h).batch, hleft, hdone⟩

section Again

variable {b : Batch} {returned : List String} {again : Marks} {table : Table}

theorem hired_tending (h : s.workers[worker]? = some marks) (ht : Tending s t) :
    ∃ again, t.workers[worker]? = some again := by
  induction ht with
  | refl => exact ⟨marks, h⟩
  | tail _ hstep ih =>
    obtain ⟨again, hagain⟩ := ih
    obtain ⟨_, _, _, _, _, _, -, -, rfl⟩ := hstep
    simp only [revert, List.getElem?_modify, hagain]
    exact ⟨_, rfl⟩

theorem frame_awaited (h : s.workers[worker]? = some marks)
    (ht : Tending (s.accept worker spans) t) :
    t.writer = s.writer ∧ t.clock = s.clock ∧ t.gate = s.gate ∧
      t.buckets.count = s.buckets.count ∧ t.store = (s.accept worker spans).store := by
  obtain ⟨_, _, _, _, rfl⟩ := ht.frame
  have hcount := Desk.drafts_count s.writer
    (due Entry.mark? (marks.refresh s.clock).marked (entriesOf spans)) s.buckets
  have hbuckets := (Desk.attempts_eq s.writer s.clock (entriesOf spans) ⟨marks, s.buckets⟩).2
  refine ⟨by rw [accept_eq h]; rfl, by rw [accept_eq h]; rfl, by rw [accept_eq h]; rfl, ?_, rfl⟩
  rw [accept_eq h]
  exact (congrArg RandomBuckets.count hbuckets).trans hcount

theorem rows_awaited (ungated : s.gate = []) (h : s.workers[worker]? = some marks)
    (ht : Tending (s.accept worker spans) t) (table : Table) :
    t.store.rows.get table =
      (s.store.rows.get table).lay (s.store.stored (s.sends marks spans) table) := by
  rw [(frame_awaited h ht).2.2.2.2, rows_accept ungated h]

theorem stored_cleared (h : s.workers[worker]? = some marks)
    (ht : Tending (s.accept worker spans) t) :
    (t.act (.setFaults [])).store.stored = s.store.clearFaults.stored := by
  have hoptions : t.store.options = s.store.options := by
    rw [(frame_awaited h ht).2.2.2.2, accept_store h, Keyspace.tellAll_options]
  exact Keyspace.stored_congr (Keyspace.rowOf_congr hoptions rfl)

theorem told_again (ungated : s.gate = []) (h : s.workers[worker]? = some marks)
    (ht : Tending (s.accept worker spans) t) (hagain : t.workers[worker]? = some again) :
    (t.act (.setFaults [])).told (.accept worker spans) = t.sends again spans := by
  obtain ⟨-, -, hgate, -, -⟩ := frame_awaited h ht
  exact told_accept (s := t.act (.setFaults [])) (hgate.trans ungated) hagain spans

theorem rows_again (ungated : s.gate = []) (h : s.workers[worker]? = some marks)
    (ht : Tending (s.accept worker spans) t) (hagain : t.workers[worker]? = some again)
    (table : Table) :
    ((t.act (.setFaults [])).accept worker spans).store.rows.get table =
      (t.store.rows.get table).lay
        (s.store.clearFaults.stored (t.sends again spans) table) := by
  rw [rows_told, told_again ungated h ht hagain, stored_cleared h ht]
  rfl

theorem stored_again (h : s.workers[worker]? = some marks)
    (ht : Tending (s.accept worker spans) t) (again : Marks)
    (fixed : table.isSpread = false ∨ s.buckets.count = 1) :
    s.store.clearFaults.stored (t.sends again spans) table =
      ((due Entry.mark? (again.refresh s.clock).marked (entriesOf spans)).filter
        (·.table = table)).filterMap (s.writer.rowFor? s.store.clearFaults) := by
  obtain ⟨hwriter, hclock, -, hcount, -⟩ := frame_awaited h ht
  rw [stored_sends _ (fixed.imp_right hcount.trans), hwriter, hclock]

theorem sendable_again (hl : s.Looked worker marks spans b returned t)
    (hwriter : t.writer = s.writer) (hclock : t.clock = s.clock)
    (sendable : ∀ a ∈ s.started marks spans, ∃ st, a.statement = .ok st) :
    ∀ a ∈ t.started (returned.foldl Marks.revert (s.walk marks spans).2.marks) spans,
      ∃ st, a.statement = .ok st := by
  intro a ha
  rw [started, walk, (Desk.attempts_eq _ _ _ _).1, hclock, hwriter, due_again hl.free] at ha
  obtain ⟨e, he, drawn, rfl⟩ := Desk.mem_drafts ha
  obtain ⟨f, hf, drawn', hattempt⟩ := flight_of_due (List.mem_of_mem_filter he)
  obtain ⟨st, hst⟩ := sendable f.attempt
    (s.flights_attempts s.issued (s.started marks spans) ▸ List.mem_map_of_mem hf)
  rw [hattempt] at hst
  obtain ⟨cells, -, hcells, -⟩ := Writer.cells_of_statement hst
  cases hspread : Writer.isSpread e with
  | false => exact ⟨_, congrArg Prod.fst (Writer.statement_fixed hcells hspread drawn)⟩
  | true => exact ⟨_, congrArg Prod.fst (Writer.statement_drawn hcells hspread drawn)⟩

/-- What was sent of a name and did not succeed is sent again. -/
theorem stored_or_due (hl : s.Looked worker marks spans b returned t) (hdone : b.outstanding = [])
    {e : Entry} (hspread : Writer.isSpread e = false)
    (he : e ∈ due Entry.mark? (marks.refresh s.clock).marked (entriesOf spans)) {row : Row}
    (hrow : s.writer.rowFor? s.store.clearFaults e = some row) :
    s.writer.rowFor? s.store e = some row ∨ e.mark?.all (· ∈ returned) := by
  obtain ⟨f, hf, drawn, hattempt⟩ := flight_of_due he
  obtain hleft | hok | ⟨-, hback⟩ := hl.seen f hf
  · rw [hdone] at hleft
    cases hleft
  · left
    obtain ⟨st, hst, -, -, hrowOf⟩ := Writer.rowFor?_eq_some hrow
    have hsent : f.attempt.sent? = some st := by
      rw [hattempt, ← hst, ← s.writer.statement_plain (.inl hspread)]
      rfl
    obtain ⟨row', hrow'⟩ :=
      Keyspace.applies_iff.mp (Keyspace.applies_iff_ok.mpr (executed_of_ok hf hok hsent))
    have hsame : row' = row :=
      Except.ok.inj ((Keyspace.rowOf_clearFaults hrow').symm.trans hrowOf)
    rw [Writer.rowFor?, hst, Option.bind_some, hrow', hsame]
    rfl
  · right
    rw [hattempt] at hback
    cases hmark : e.mark? with
    | none => rfl
    | some key => simpa using hback key hmark

theorem rows_retried_plain (ungated : s.gate = [])
    (hired : s.workers[worker]? = some marks) (ht : Tending (s.accept worker spans) t)
    (hnames : table.isNames = false) (fixed : table.isSpread = false ∨ s.buckets.count = 1) :
    ((t.act (.setFaults [])).accept worker spans).store.rows.get table =
      (s.store.rows.get table).lay
        (s.store.clearFaults.stored (s.sends marks spans) table) := by
  obtain ⟨again, hagain⟩ := hired_tending (marks_accept hired spans) ht
  have hstored : s.store.clearFaults.stored (t.sends again spans) table =
      s.store.clearFaults.stored (s.sends marks spans) table := by
    rw [stored_again hired ht again fixed, due_table hnames, stored_plain _ hnames fixed]
  rw [rows_again ungated hired ht hagain, rows_awaited ungated hired ht, hstored]
  exact Rows.lay_lay_of_sub fun _ => Keyspace.mem_stored_clearFaults

/-- Between them, the two passes store every name. -/
theorem rows_retried_names (ungated : s.gate = [])
    (hired : s.workers[worker]? = some marks) (idle : s.Idle worker)
    (hl : s.Looked worker marks spans b returned t) (ht : Tending (s.accept worker spans) t)
    (hdone : b.outstanding = []) (hnames : table.isNames) :
    ((t.act (.setFaults [])).accept worker spans).store.rows.get table =
      (s.store.rows.get table).lay
        (s.store.clearFaults.stored (s.sends marks spans) table) := by
  have hspread : table.isSpread = false := Table.not_isSpread hnames
  have hagain := stored_again hired ht
    (returned.foldl Marks.revert (s.walk marks spans).2.marks) (.inl hspread)
  rw [due_again hl.free] at hagain
  rw [rows_again ungated hired ht (hl.alone idle).1, rows_awaited ungated hired ht]
  apply Rows.lay_lay_of_split fun _ => Keyspace.mem_stored_clearFaults
  · intro row hrow
    rw [hagain] at hrow
    rw [stored_sends _ (.inl hspread)]
    obtain ⟨e, he, hrow⟩ := List.mem_filterMap.mp hrow
    obtain ⟨he, htable⟩ := List.mem_filter.mp he
    exact List.mem_filterMap.mpr
      ⟨e, List.mem_filter.mpr ⟨List.mem_of_mem_filter he, htable⟩, hrow⟩
  · intro row hrow
    rw [stored_sends _ (.inl hspread)] at hrow
    rw [stored_sends _ (.inl hspread), hagain]
    obtain ⟨e, he, hrow⟩ := List.mem_filterMap.mp hrow
    obtain ⟨he, htable⟩ := List.mem_filter.mp he
    have hfixed : Writer.isSpread e = false := by
      rw [← Entry.isSpread_table, of_decide_eq_true htable, hspread]
    obtain hstored | hback := stored_or_due hl hdone hfixed he hrow
    · exact .inl (List.mem_filterMap.mpr ⟨e, List.mem_filter.mpr ⟨he, htable⟩, hstored⟩)
    · exact .inr (List.mem_filterMap.mpr
        ⟨e, List.mem_filter.mpr ⟨List.mem_filter.mpr ⟨he, hback⟩, htable⟩, hrow⟩)
  · intro row hrow row' hrow'
    rw [stored_sends _ (.inl hspread)] at hrow hrow'
    obtain ⟨e, he, hrow⟩ := List.mem_filterMap.mp hrow
    obtain ⟨e', he', hrow'⟩ := List.mem_filterMap.mp hrow'
    exact Writer.eq_of_names hnames (of_decide_eq_true (List.mem_filter.mp he).2)
      (of_decide_eq_true (List.mem_filter.mp he').2) hrow hrow'

end Again

/-- Trying again after any failures. Once the outcome of the first try is known, and nothing of it
is left to be looked at, a second try without faults succeeds, and leads every table whose rows go
to fixed buckets to where a single try without faults leads it. -/
theorem retry_converges (s : Service) (worker : Nat) (marks : Marks) (spans : List Span)
    (faults : List Fault) (ungated : s.gate = [])
    (hired : s.workers[worker]? = some marks) (idle : s.Idle worker)
    (sendable : ∀ a ∈ s.started marks spans, ∃ st, a.statement = .ok st) :
    let i := s.batches.length
    let tried := (s.act (.setFaults faults)).accept worker spans
    let once := ((s.act (.setFaults [])).accept worker spans).settle i
    (∃ b outcome, (tried.settle i).batches[i]? = some b ∧ b.outstanding = [] ∧
      b.state = .done outcome) ∧
    once.batchState? i = some (.done (.ok ())) ∧
    ∀ t b, Tending tried t → t.batches[i]? = some b → b.outstanding = [] →
      let again := t.act (.setFaults [])
      let retried := (again.accept worker spans).settle again.batches.length
      retried.batchState? again.batches.length = some (.done (.ok ())) ∧
        ∀ table, table.isSpread = false ∨ s.buckets.count = 1 →
          retried.store.rows.get table = once.store.rows.get table := by
  intro i tried once
  let faulty := s.act (.setFaults faults)
  refine ⟨accept_settles (s := faulty) ungated hired spans,
    accept_succeeds (s := s.act (.setFaults [])) ungated rfl hired sendable, ?_⟩
  intro t b ht hb hdone again retried
  obtain ⟨b', returned, hl⟩ := looked_tending (s := faulty) hired ht
  obtain rfl : b' = b := Option.some.inj (hl.batch.symm.trans hb)
  obtain ⟨hwriter, hclock, hgate, -, -⟩ := frame_awaited (s := faulty) hired ht
  constructor
  · have hsendable := sendable_again hl hwriter hclock sendable
    exact accept_succeeds (s := again) (hgate.trans ungated) rfl (hl.alone idle).1 hsendable
  · intro table fixed
    have honce : once.store.rows.get table = (s.store.rows.get table).lay
        (s.store.clearFaults.stored (s.sends marks spans) table) := by
      rw [(tending_frame (tending_settle i _)).1]
      exact rows_accept (s := s.act (.setFaults [])) ungated hired spans table
    rw [honce, (tending_frame (tending_settle _ _)).1]
    cases hnames : table.isNames with
    | false =>
      exact rows_retried_plain (s := faulty) ungated hired ht hnames fixed
    | true =>
      exact rows_retried_names (s := faulty) ungated hired idle hl ht hdone hnames

theorem retry_converges_web :
    let s := zipkin.run [.hire]
    let marks := Marks.fresh zipkin.settings.dedupMillis zipkin.clock
    let spans := [{ Span.of "web" "get" with timestamp := some 1 }]
    let tried := (s.act (.setFaults [.onTable .serviceNames (.timeout "slow")])).accept 0 spans
    let once := ((s.act (.setFaults [])).accept 0 spans).settle 0
    let retried := (((tried.settle 0).act (.setFaults [])).accept 0 spans).settle 1
    s.gate = [] ∧ s.workers[0]? = some marks ∧ s.Idle 0 ∧
    (∀ a ∈ s.started marks spans, ∃ st, a.statement = .ok st) ∧
    (tried.store.rows.get .serviceNames).toList = [] ∧
    retried.batchState? 1 = some (.done (.ok ())) ∧
    retried.store.rows.get .serviceNames = once.store.rows.get .serviceNames ∧
    (retried.store.rows.get .serviceNames).toList = [⟨[.text "web"], [], some 259200⟩] := by
  intro s marks spans tried once retried
  have hired : s.workers[0]? = some marks := rfl
  have idle : s.Idle 0 := fun b hb => absurd hb List.not_mem_nil
  have sendable : ∀ a ∈ s.started marks spans, ∃ st, a.statement = .ok st := by
    have hsent : ∀ a ∈ s.started marks spans, a.sent?.isSome := by decide +kernel
    intro a ha
    obtain ⟨st, hst⟩ := Option.isSome_iff_exists.mp (hsent a ha)
    exact ⟨st, Attempt.sent?_eq_some.mp hst⟩
  obtain ⟨⟨b, -, hb, hdone, -⟩, -, hagain⟩ := retry_converges s 0 marks spans
    [.onTable .serviceNames (.timeout "slow")] rfl hired idle sendable
  have hcount : ((tried.settle 0).act (.setFaults [])).batches.length = 1 := by decide +kernel
  have hretried := hagain (tried.settle 0) b (tending_settle 0 _) hb hdone
  simp only [hcount] at hretried
  obtain ⟨hok, hrows⟩ := hretried
  refine ⟨rfl, hired, idle, sendable, by decide +kernel, hok, hrows _ (.inl rfl), ?_⟩
  decide +kernel

end Service

end TraceIndex
