import TraceIndex.Proofs.Rejections

namespace TraceIndex

/-- Nothing that a span calls for is rejected: the span can be encoded, and every annotation key that
it is found by can be indexed. -/
structure Span.Writable (w : Writer) (s : Span) : Prop where
  encoded : ∃ bytes, w.codec.encode s = .ok bytes
  indexed : s.timestamp.isSome → ∀ key ∈ s.annotationKeys,
    (Utf8.encode key).length ≤ w.keyLimit.toNat

namespace Writer

variable (w : Writer)

theorem rejection?_trace (span : Span) (time : Int64) (key : String) :
    w.rejection? (.trace span time key) = none ↔ ∃ bytes, w.codec.encode span = .ok bytes := by
  cases h : w.codec.encode span with
  | error failure =>
    have hcells : w.cells (.trace span time key) = .error failure := by
      simp only [cells, h]
      rfl
    simp [rejection?, hcells]
  | ok bytes =>
    simp only [rejection?, cells, h]
    exact iff_of_true rfl ⟨bytes, rfl⟩

theorem rejection?_byAnnotationKey (key : String) (time : Int64) (id : UInt64) :
    w.rejection? (.byAnnotationKey key time id) = none ↔
      (Utf8.encode key).length ≤ w.keyLimit.toNat := by
  by_cases h : w.keyLimit.toNat < (Utf8.encode key).length
  · have hcells : w.cells (.byAnnotationKey key time id) =
        .error (.valueTooLarge (Utf8.encode key).length w.keyLimit.toNat) := by
      simp only [cells, h, ↓reduceIte]
      rfl
    simp [rejection?, hcells, h]
  · have hle := Nat.not_lt.mp h
    simp only [rejection?, cells, h]
    exact iff_of_true rfl hle

theorem rejection?_serviceEntries (s : Span) {service : String} (hs : service ≠ "") {e : Entry}
    (he : e ∈ s.serviceEntries service) : w.rejection? e = none := by
  have hfilled := s.filled_of_mem_serviceEntries hs he
  have hplain : e.table ≠ .traces ∧ e.table ≠ .byAnnotationKey := by
    cases ht : s.timestamp <;> cases hd : s.duration <;> cases hn : s.isNamed <;>
      simp [Span.serviceEntries, Span.indexEntries, ht, hd, hn] at he <;>
      grind [Entry.table]
  cases e with
  | trace => exact absurd rfl hplain.1
  | byAnnotationKey => exact absurd rfl hplain.2
  | serviceName service | byService service | byDuration service =>
    have hservice : required "service_name" service = .ok () := required_eq_ok hfilled
    simp only [rejection?, cells, hservice]
    rfl
  | spanName service name | bySpanName service name =>
    have hservice : required "service_name" service = .ok () := required_eq_ok hfilled.1
    have hname : required "span_name" name = .ok () := required_eq_ok hfilled.2
    simp only [rejection?, cells, hservice, hname]
    rfl

theorem rejection?_keyEntries (s : Span) :
    (∀ e ∈ s.keyEntries, w.rejection? e = none) ↔
      (s.timestamp.isSome → ∀ key ∈ s.annotationKeys,
        (Utf8.encode key).length ≤ w.keyLimit.toNat) := by
  cases ht : s.timestamp with
  | none => simp [Span.keyEntries, ht]
  | some time => simp [Span.keyEntries, ht, rejection?_byAnnotationKey]

theorem rejection?_entries (s : Span) :
    (∀ e ∈ s.entries, w.rejection? e = none) ↔ s.Writable w := by
  have hservices : ∀ e ∈ s.services.flatMap s.serviceEntries, w.rejection? e = none := by
    intro e he
    obtain ⟨service, hservice, he⟩ := List.mem_flatMap.mp he
    exact w.rejection?_serviceEntries s (s.ne_empty_of_mem_services hservice) he
  rw [Span.entries, List.forall_mem_append, List.forall_mem_append, List.forall_mem_singleton,
    rejection?_trace, rejection?_keyEntries, and_iff_left hservices]
  constructor
  · rintro ⟨hencoded, hindexed⟩
    exact ⟨hencoded, hindexed⟩
  · exact fun h => ⟨h.encoded, h.indexed⟩

theorem rejection?_entriesOf (spans : List Span) :
    (Service.entriesOf spans).filterMap w.rejection? = [] ↔
      ∀ span ∈ spans, span.normalize.Writable w := by
  rw [List.filterMap_eq_nil_iff]
  simp only [← rejection?_entries, Service.mem_entriesOf]
  constructor
  · exact fun h span hspan e he => h e ⟨span, hspan, he⟩
  · rintro h e ⟨span, hspan, he⟩
    exact h span hspan e he

end Writer

theorem Flight.hasFailed_iff {f : Flight}
    (h : f.attempt.sent?.isSome → f.reply = some (.ok ())) :
    f.HasFailed ↔ f.attempt.rejection?.isSome := by
  cases hs : f.attempt.statement with
  | error failure => simp [HasFailed, outcome?, Attempt.rejection?, hs]
  | ok st =>
    have hsent : f.attempt.sent? = some st := Attempt.sent?_eq_some.mpr hs
    have hreply : f.reply = some (.ok ()) := h (by rw [hsent]; rfl)
    simp [HasFailed, outcome?, Attempt.rejection?, hs, hreply, Except.mapError]

namespace Batch

theorem done_of_outstanding {b : Batch} (hnone : b.outstanding = []) (hkept : b.isDropped = false) :
    ∃ outcome, b.state = .done outcome := by
  cases hfirst : b.failure with
  | some first => exact ⟨_, b.state_of_failure hfirst⟩
  | none =>
    have hempty := List.append_eq_nil_iff.mp hnone
    exact ⟨.ok (), by simp [state, hfirst, hkept, hempty]⟩

end Batch

namespace Service

variable {s : Service} {worker : Nat} {marks : Marks} {spans : List Span} {later : List Action}

theorem done_accept (h : s.workers[worker]? = some marks) (hs : s.Ticketed)
    (attended : ∀ a ∈ later, a.Attends s.batches.length)
    (succeeds : ∀ f ∈ s.flights s.issued (s.started marks spans), f.attempt.sent?.isSome →
      (f.after ((s.accept worker spans).arrivals later)).reply = some (.ok ())) :
    ∃ outcome, (((s.accept worker spans).run later).settle s.batches.length).batchState?
        s.batches.length = some (.done outcome) ∧
      (outcome = .ok () ↔ ∀ span ∈ spans, span.normalize.Writable s.writer) := by
  let flights := s.flights s.issued (s.started marks spans)
  let arrivals := (s.accept worker spans).arrivals later
  have hknown : ∀ f ∈ flights, (f.after arrivals).isKnown := by
    intro f hf
    rw [Flight.isKnown_iff, (f.after_frame arrivals).1]
    cases hsent : f.attempt.sent? with
    | none => exact .inl rfl
    | some st =>
      right
      rw [succeeds f hf (by rw [hsent]; rfl)]
      rfl
  have hfailed : ∀ f ∈ flights,
      (f.after arrivals).HasFailed ↔ f.attempt.rejection?.isSome := by
    intro f hf
    have hattempt := (f.after_frame arrivals).1
    rw [Flight.hasFailed_iff (by rw [hattempt]; exact succeeds f hf), hattempt]
  obtain ⟨b, hb, hpartway, hnone, hperm⟩ := seen_accept h hs attended hknown
  obtain ⟨outcome, hdone⟩ := Batch.done_of_outstanding hnone hpartway.isDropped
  have hok : (∀ f ∈ flights.map (·.after arrivals), ¬ f.HasFailed) ↔
      flights.filterMap (·.attempt.rejection?) = [] := by
    simp only [List.forall_mem_map, List.filterMap_eq_nil_iff]
    apply forall₂_congr
    intro f hf
    rw [hfailed f hf, Option.not_isSome_iff_eq_none]
  refine ⟨outcome, state_of_batch hb hdone, ?_⟩
  rw [← s.writer.rejection?_entriesOf, ← flights_rejections s marks, ← hok]
  have hstate := hpartway.state_ok hnone
  rw [hdone] at hstate
  simpa only [BatchState.done.injEq, hperm.mem_iff] using hstate

theorem failed_of_first {t : Service} {i : Nat}
    (h : ∃ first ∈ t.batches[i]?.bind (·.failure), first.isRetryable) :
    ∃ failure, t.batchState? i = some (.done (.error failure)) ∧ failure.isRetryable := by
  obtain ⟨first, hfirst, hretryable⟩ := h
  obtain ⟨b, hb, hfailure⟩ := Option.bind_eq_some_iff.mp hfirst
  exact ⟨.batch b.size first, state_of_batch hb (b.state_of_failure hfailure), hretryable⟩

/-- A batch that has failed is what the outcomes that were seen of it make of it, in their order. They
are those of its writes, with the replies that arrived for them, and each is seen once at most. -/
theorem verdict_accept (h : s.workers[worker]? = some marks) (hs : s.Ticketed)
    (actions : List Action) {failure : Failure}
    (failed : ((s.accept worker spans).run actions).batchState? s.batches.length =
      some (.done (.error failure))) :
    let accepted := s.accept worker spans
    let flights := s.flights s.issued (s.started marks spans)
    let seen := accepted.sights s.batches.length actions
    ((seen.map (·.ticket)).Nodup ∧
      ∀ f ∈ seen, f.isKnown ∧ f ∈ flights.map (·.after (accepted.arrivals actions))) ∧
    Batch.verdict flights.length (seen.filterMap Flight.outcome?) = .done (.error failure) := by
  intro accepted flights seen
  have hanswers : Batch.Answers flights (accepted.arrivals actions) :=
    answers_accept h hs (spent_run (ticketed_accept h hs) _).2
  obtain ⟨b, lost, hb, hsighted⟩ := sighted_run actions (batch_accept h spans)
    (Batch.sighted_ofFlights worker flights) (by rwa [List.nil_append])
  rw [batchState?, hb, Option.map_some, Option.some.injEq] at failed
  obtain ⟨honce, hmem⟩ := hsighted.each_once hanswers.distinct
  exact ⟨⟨honce, fun f hf => ⟨hsighted.known f hf, hmem f hf⟩⟩, hsighted.verdict failed⟩

/-- Spans that a worker accepts again, after a failure that is retryable, succeed before a store that
does all that it is sent if and only if they are writable. The failure tells how many writes there
were and how the first of those that were seen to fail did, and nothing of the others. -/
theorem retried_ok_iff (setup : Setup) (s₀ : Service) (earlier before later : List Action)
    (worker : Nat) (marks marks' : Marks) (spans : List Span) (failure : Failure)
    (opened : setup.openService = .ok s₀)
    (hired : (s₀.run earlier).workers[worker]? = some marks)
    (failed : (((s₀.run earlier).accept worker spans).run before).batchState?
      (s₀.run earlier).batches.length = some (.done (.error failure)))
    (retryable : failure.isRetryable)
    (hired' : (((s₀.run earlier).accept worker spans).run before).workers[worker]? = some marks')
    (attended : ∀ a ∈ later,
      a.Attends (((s₀.run earlier).accept worker spans).run before).batches.length)
    (succeeds :
      let t := ((s₀.run earlier).accept worker spans).run before
      ∀ f ∈ t.flights t.issued (t.started marks' spans), f.attempt.sent?.isSome →
        (f.after ((t.accept worker spans).arrivals later)).reply = some (.ok ())) :
    let s := s₀.run earlier
    let accepted := s.accept worker spans
    let t := accepted.run before
    let j := t.batches.length
    let flights := s.flights s.issued (s.started marks spans)
    let seen := accepted.sights s.batches.length before
    ((seen.map (·.ticket)).Nodup ∧
      ∀ f ∈ seen, f.isKnown ∧ f ∈ flights.map (·.after (accepted.arrivals before))) ∧
    Batch.verdict flights.length (seen.filterMap Flight.outcome?) = .done (.error failure) ∧
    (∃ first, failure = .batch flights.length first ∧ first.isRetryable ∧
      (seen.filterMap Flight.outcome?).findSome? failureIn? = some first) ∧
    ∃ outcome,
      (((t.accept worker spans).run later).settle j).batchState? j = some (.done outcome) ∧
      (outcome = .ok () ↔ ∀ span ∈ spans, span.normalize.Writable s₀.writer) := by
  intro s accepted t j flights seen
  have hticketed : t.Ticketed := by
    have hrun := ticketed_run opened (earlier ++ .accept worker spans :: before)
    rwa [run_append] at hrun
  have hwriter : t.writer = s₀.writer :=
    calc
      t.writer = accepted.writer := writer_run _ before
      _ = s.writer := writer_run s [.accept worker spans]
      _ = s₀.writer := writer_run s₀ earlier
  obtain ⟨honce, hverdict⟩ := verdict_accept hired (ticketed_run opened earlier) before failed
  obtain ⟨first, rfl, hfirst⟩ := Batch.first_of_verdict hverdict
  refine ⟨honce, hverdict, ⟨first, rfl, retryable, hfirst⟩, ?_⟩
  rw [← hwriter]
  exact done_accept hired' hticketed attended succeeds

theorem retried_ok_iff_web :
    let earlier : List Action := [.hire, .setFaults [.onTable .traces (.timeout "slow")]]
    let before : List Action := [.observe 0, .observe 0, .setFaults []]
    let spans : List Span := [.of "web" ""]
    let accepted := (zipkin.run earlier).accept 0 spans
    let t := accepted.run before
    (accepted.sights 0 before).map (·.storeFailure?.map (·.2)) = [some (.timeout "slow"), none] ∧
    (∃ failure first, t.batchState? 0 = some (.done (.error failure)) ∧
      failure = .batch 2 first ∧ first.isRetryable) ∧
    ((t.accept 0 spans).settle 1).batchState? 1 = some (.done (.ok ())) := by
  intro earlier before spans accepted t
  let marks := Marks.fresh zipkin.settings.dedupMillis zipkin.clock
  have hired : (zipkin.run earlier).workers[0]? = some marks := rfl
  obtain ⟨failure, failed, retryable⟩ :
      ∃ failure, t.batchState? 0 = some (.done (.error failure)) ∧ failure.isRetryable :=
    failed_of_first (by decide +kernel)
  let marks' := t.workers[0]?.getD marks
  have hired' : t.workers[0]? = some marks' := by
    have found : t.workers[0]?.isSome := by decide +kernel
    obtain ⟨m, hm⟩ := Option.isSome_iff_exists.mp found
    rw [hm, Option.some_inj]
    exact (congrArg (Option.getD · marks) hm).symm
  have succeeds : ∀ f ∈ t.flights t.issued (t.started marks' spans), f.attempt.sent?.isSome →
      (f.after ((t.accept 0 spans).arrivals [])).reply = some (.ok ()) := by
    decide +kernel
  have count : t.batches.length = 1 := by decide +kernel
  have writable : ∀ span ∈ spans, span.normalize.Writable zipkin.writer := by
    intro span hspan
    obtain rfl := List.mem_singleton.mp hspan
    exact ⟨⟨_, rfl⟩, fun htime => absurd htime (by decide +kernel)⟩
  obtain ⟨-, -, ⟨first, hfailure, hfirst, -⟩, outcome, hdone, hok⟩ := retried_ok_iff .zipkin zipkin
    earlier before [] 0 marks marks' spans failure zipkin_opened hired failed retryable hired'
    (by simp) succeeds
  have hfinal : (((t.accept 0 spans).run []).settle t.batches.length).batchState?
      t.batches.length = some (.done (.ok ())) :=
    hok.mpr writable ▸ hdone
  rw [count, run_nil] at hfinal
  have two : ((zipkin.run earlier).flights (zipkin.run earlier).issued
      ((zipkin.run earlier).started marks spans)).length = 2 := by decide +kernel
  rw [two] at hfailure
  exact ⟨by decide +kernel, ⟨failure, first, failed, hfailure, hfirst⟩, hfinal⟩

/-- A failure of the store hides that a key is too long: what failed with a failure that is
retryable fails again, although every statement is done and nothing is outstanding. -/
theorem retryable_rejected_again :
    let span : Span := { Span.of "web" "" with timestamp := some 5 }
    let s := terse.run [.hire, .setFaults [.onTable .traces (.timeout "slow")]]
    let t := (s.accept 0 [span]).run (List.replicate 5 (.observe 0) ++ [.setFaults []])
    { Setup.zipkin with settings := { keyLimit := 8 } }.openService = .ok terse ∧
    (∃ failure, t.batchState? 0 = some (.done (.error failure)) ∧ failure.isRetryable) ∧
    t.held = [] ∧ (∀ b ∈ t.batches, b.outstanding.isEmpty) ∧
    (∀ r ∈ t.reports (.accept 0 [span]), r.isFault = false) ∧
    ((t.accept 0 [span]).settle 1).batchState? 1 =
      some (.done (.error (.batch 4 (.valueTooLarge 13 8)))) := by
  intro span s t
  refine ⟨terse_opened, failed_of_first (by decide +kernel), ?_, ?_, ?_, ?_⟩
  all_goals decide +kernel

end Service

end TraceIndex
