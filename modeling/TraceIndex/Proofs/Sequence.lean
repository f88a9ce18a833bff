import TraceIndex.Proofs.Dimensions

namespace TraceIndex

def Table.isNames (t : Table) : Bool := t = .serviceNames ∨ t = .spanNames

def Table.isSpread (t : Table) : Bool := t = .byService ∨ t = .byAnnotationKey

theorem Table.not_isSpread {t : Table} (h : t.isNames) : t.isSpread = false := by
  cases t with
  | serviceNames | spanNames => rfl
  | traces | byService | bySpanName | byAnnotationKey | byDuration => cases h

theorem Entry.isNames_table (e : Entry) : e.table.isNames = e.mark?.isSome := by
  cases e <;> rfl

theorem Entry.isSpread_table (e : Entry) : e.table.isSpread = Writer.isSpread e := by
  cases e <;> rfl

theorem due_filter_none {α : Type} (key? : α → Option String) (taken : List String) (l : List α) :
    (due key? taken l).filter (fun a => (key? a).isNone) = l.filter fun a => (key? a).isNone := by
  induction l generalizing taken with
  | nil => rfl
  | cons a l ih =>
    cases ha : key? a with
    | none => simp only [due_cons_none ha, List.filter_cons, ih]
    | some key =>
      by_cases hk : key ∈ taken
      · simp [due_cons_taken ha hk, ha, ih]
      · simp [due_cons_free ha hk, ha, ih]

namespace Writer

variable (w : Writer) {e : Entry}

theorem statement_of_not_spread (h : isSpread e = false) (b b' : RandomBuckets) :
    (w.statement e b).1 = (w.statement e b').1 ∧ (w.statement e b).2 = b := by
  cases hc : w.cells e with
  | error failure => simp only [statement_of_error hc, and_self]
  | ok cells => simp only [statement_fixed hc h, and_self]

variable {w} in
theorem cells_bucket {cells : Int32 → List (String × Cell)} (hc : w.cells e = .ok cells)
    (h : isSpread e) (bucket : Int32) : (cells bucket).lookup "bucket" = some (.int bucket) := by
  cases e with
  | byService service ts id =>
    cases required_of_bind hc
    rfl
  | byAnnotationKey key ts id =>
    simp only [Writer.cells] at hc
    split at hc
    · cases hc
    · cases hc
      rfl
  | trace | serviceName | spanName | bySpanName | byDuration => cases h

end Writer

def Words.results (bound : UInt32) : Nat → Words → List UInt32 × Words
  | 0, words => ([], words)
  | n + 1, words =>
    let (first, words) := words.below bound
    let (rest, words) := results bound n words
    (first :: rest, words)

namespace RandomBuckets

theorem parts_of_ofWords? {count : UInt32} {words : Words} {b : RandomBuckets}
    (h : ofWords? count words = some b) : b.count = count ∧ b.words = words := by
  simp only [ofWords?] at h
  split at h
  · cases h
  · cases h
    exact ⟨rfl, rfl⟩

/-- Each draw takes the next result of the stream, and leaves what is behind it. -/
theorem draws_eq_results (n : Nat) (b : RandomBuckets) :
    (b.draws n).1 = (b.words.results b.count n).1.map UInt32.toInt32 ∧
      (b.draws n).2.words = (b.words.results b.count n).2 ∧ (b.draws n).2.count = b.count := by
  induction n generalizing b with
  | zero => exact ⟨rfl, rfl, rfl⟩
  | succ n ih =>
    obtain ⟨hbuckets, hleft⟩ := ih b.draw.2
    exact ⟨congrArg (b.draw.1 :: ·) hbuckets, hleft⟩

end RandomBuckets

namespace Desk

variable (w : Writer)

theorem drafts_append (l m : List Entry) (b : RandomBuckets) :
    drafts w (l ++ m) b = ((drafts w l b).1 ++ (drafts w m (drafts w l b).2).1,
      (drafts w m (drafts w l b).2).2) := by
  induction l generalizing b with
  | nil => rfl
  | cons e l ih => rw [List.cons_append, drafts_cons, ih, drafts_cons]; rfl

theorem drafts_unmarked (l : List Entry) (b : RandomBuckets) :
    drafts w (l.filter (·.mark?.isNone)) b =
      ((drafts w l b).1.filter (·.mark.isNone), (drafts w l b).2) := by
  induction l generalizing b with
  | nil => rfl
  | cons e l ih =>
    rw [drafts_cons]
    cases he : e.mark? with
    | none => simp [drafts_cons, he, ih]
    | some key =>
      have hspread : Writer.isSpread e = false := by
        cases e with
        | serviceName | spanName => rfl
        | trace | byService | bySpanName | byAnnotationKey | byDuration => cases he
      have hdrawn := (w.statement_of_not_spread hspread b b).2
      simp [he, hdrawn, ih]

/-- The statements of spread entries go to the buckets that are drawn next, and nothing else draws
one. -/
theorem drafts_buckets (l : List Entry) (b : RandomBuckets) :
    let spread := ((drafts w l b).1.filterMap Attempt.sent?).filter (·.table.isSpread)
    spread.map (·.get? "bucket") = (b.draws spread.length).1.map (some <| .int ·) ∧
      (drafts w l b).2 = (b.draws spread.length).2 := by
  induction l generalizing b with
  | nil => exact ⟨rfl, rfl⟩
  | cons e l ih =>
    rw [drafts_cons]
    cases hc : w.cells e with
    | error failure =>
      have hstatement := Writer.statement_of_error hc b
      have hnone : (⟨.error failure, e.mark?⟩ : Attempt).sent? = none := rfl
      simpa only [hstatement, List.filterMap_cons_none hnone] using ih b
    | ok cells =>
      cases hspread : Writer.isSpread e with
      | false =>
        have hstatement := Writer.statement_fixed hc hspread b
        have htable : (w.bound e.table (cells 0)).table.isSpread = false :=
          e.isSpread_table.trans hspread
        simpa [hstatement, Attempt.sent?, Except.toOption, htable] using ih b
      | true =>
        have hstatement := Writer.statement_drawn hc hspread b
        have htable : (w.bound e.table (cells b.draw.1)).table.isSpread = true :=
          e.isSpread_table.trans hspread
        have hbucket : (w.bound e.table (cells b.draw.1)).get? "bucket" = some (.int b.draw.1) :=
          Writer.cells_bucket hc hspread _
        obtain ⟨hbuckets, hdrawn⟩ := ih b.draw.2
        simp [hstatement, Attempt.sent?, Except.toOption, htable, hbucket, RandomBuckets.draws,
          hbuckets, hdrawn]

end Desk

namespace Service

def dispatched (s : Service) (a : Action) : List Statement :=
  ((s.act a).batches.drop s.batches.length).flatMap fun b => b.ready.filterMap (·.attempt.sent?)

def dispatches (s : Service) : List Action → List Statement
  | [] => []
  | a :: rest => s.dispatched a ++ (s.act a).dispatches rest

end Service

def Report.span? : Report → Option Span
  | .accepted span => some span
  | .answered .. => none

def spansOf (past : List Report) : List Span := past.filterMap Report.span?

namespace Service

variable {s : Service}

theorem spansOf_append (past more : List Report) :
    spansOf (past ++ more) = spansOf past ++ spansOf more :=
  List.filterMap_append

theorem entriesOf_append (spans more : List Span) :
    entriesOf (spans ++ more) = entriesOf spans ++ entriesOf more := by
  simp only [entriesOf, List.map_append, List.flatMap_append]

def plainEntries (spans : List Span) : List Entry := (entriesOf spans).filter (·.mark?.isNone)

def plainDrafts (w : Writer) (spans : List Span) (b : RandomBuckets) :
    List Attempt × RandomBuckets :=
  Desk.drafts w (plainEntries spans) b

theorem plainDrafts_append (w : Writer) (spans more : List Span) (b : RandomBuckets) :
    plainDrafts w (spans ++ more) b =
      ((plainDrafts w spans b).1 ++ (plainDrafts w more (plainDrafts w spans b).2).1,
        (plainDrafts w more (plainDrafts w spans b).2).2) := by
  rw [plainDrafts, plainEntries, entriesOf_append, List.filter_append, Desk.drafts_append]
  rfl

theorem started_unmarked (s : Service) (marks : Marks) (spans : List Span) :
    ((s.started marks spans).filter (·.mark.isNone), (s.walk marks spans).2.buckets) =
      plainDrafts s.writer spans s.buckets := by
  obtain ⟨hattempts, hbuckets⟩ := Desk.attempts_eq s.writer s.clock (entriesOf spans)
    ⟨marks, s.buckets⟩
  have hdrafts := Desk.drafts_unmarked s.writer
    (due Entry.mark? (marks.refresh s.clock).marked (entriesOf spans)) s.buckets
  rw [due_filter_none] at hdrafts
  rw [started, walk, hattempts, hbuckets, plainDrafts, plainEntries, hdrafts]

theorem isNames_of_started {marks : Marks} {spans : List Span} {a : Attempt}
    (ha : a ∈ s.started marks spans) {st : Statement} (hst : a.sent? = some st) :
    st.table.isNames = a.mark.isSome := by
  obtain ⟨e, -, drawn, rfl⟩ := mem_started ha
  rw [Writer.statement_table (Attempt.sent?_eq_some.mp hst), Entry.isNames_table]

theorem sent_unmarked (marks : Marks) (spans : List Span) :
    ((s.started marks spans).filterMap Attempt.sent?).filter (!·.table.isNames) =
      ((s.started marks spans).filter (·.mark.isNone)).filterMap Attempt.sent? := by
  rw [List.filter_filterMap, List.filterMap_filter]
  apply List.filterMap_congr
  intro a ha
  cases hst : a.sent? with
  | none => simp
  | some st =>
    have hnames := isNames_of_started ha hst
    cases hmark : a.mark <;> simp_all [Option.filter]

/-- Nothing is accepted: no batch is started and no bucket drawn, and the store is told nothing but
what was held back. -/
structure Quiet (s t : Service) : Prop where
  writer : t.writer = s.writer
  gate : t.gate = s.gate
  buckets : t.buckets = s.buckets
  batches : t.batches.length = s.batches.length
  log : s.held = [] → t.held = [] ∧ t.store.log = s.store.log

theorem Quiet.refl (s : Service) : Quiet s s := ⟨rfl, rfl, rfl, rfl, fun h => ⟨h, rfl⟩⟩

theorem quiet_tending {t : Service} (h : Tending s t) : Quiet s t := by
  induction h with
  | refl => exact .refl s
  | tail _ hstep ih =>
    obtain ⟨i, b, b', keys, notices, metrics, -, -, rfl⟩ := hstep
    exact ⟨ih.writer, ih.gate, ih.buckets, List.length_set.trans ih.batches, ih.log⟩

theorem quiet_resolve (s : Service) (fate : Fate) (ticket : Nat) :
    Quiet s (s.resolveUnder fate ticket) := by
  cases h : s.heldUnder? ticket with
  | none =>
    rw [resolveUnder_of_none h]
    exact .refl s
  | some held =>
    have hmem := (mem_held_of_heldUnder? h).1
    rw [resolveUnder_of_some h]
    refine ⟨rfl, rfl, rfl, List.length_map .., fun hnone => ?_⟩
    rw [hnone] at hmem
    cases hmem

theorem spansOf_replies (s : Service) (a : Action) : spansOf (s.replies a) = [] := by
  apply List.filterMap_eq_nil_iff.mpr
  intro r hr
  obtain ⟨st, -, rfl⟩ := List.mem_map.mp hr
  rfl

theorem spansOf_reports_accept {worker : Nat} {marks : Marks}
    (h : s.workers[worker]? = some marks) (spans : List Span) :
    spansOf (s.reports (.accept worker spans)) = spans := by
  have hlt : worker < s.workers.length := (List.getElem?_eq_some_iff.mp h).1
  have hspans : spansOf (spans.map .accepted) = spans := by
    rw [spansOf, List.filterMap_map]
    exact List.filterMap_some
  simp only [reports, hlt, ↓reduceIte, spansOf_append, hspans, spansOf_replies, List.append_nil]

def Action.isAccept : Action → Bool
  | .accept .. => true
  | _ => false

theorem quiet_act {a : Action} (h : Action.isAccept a = false) (s : Service) :
    Quiet s (s.act a) ∧ spansOf (s.reports a) = [] := by
  cases a with
  | accept => cases h
  | hire => exact ⟨⟨rfl, rfl, rfl, rfl, fun h => ⟨h, rfl⟩⟩, s.spansOf_replies _⟩
  | advance i place => exact ⟨quiet_tending (tending_advance s i place), s.spansOf_replies _⟩
  | observe i => exact ⟨quiet_tending (tending_observe i s), s.spansOf_replies _⟩
  | drop i => exact ⟨quiet_tending (tending_drop s i), s.spansOf_replies _⟩
  | settleAlone i => exact ⟨quiet_tending (tending_settleAlone s i), s.spansOf_replies _⟩
  | resolve fate ticket =>
    refine ⟨quiet_resolve s fate ticket, ?_⟩
    cases hh : s.heldUnder? ticket with
    | none => rw [reports_resolve_of_none hh]; rfl
    | some held =>
      obtain ⟨-, rfl⟩ := mem_held_of_heldUnder? hh
      rw [reports_resolve hh]
      rfl
  | look worker => exact ⟨⟨rfl, rfl, rfl, rfl, fun h => ⟨h, rfl⟩⟩, s.spansOf_replies _⟩
  | setClock now => exact ⟨⟨rfl, rfl, rfl, rfl, fun h => ⟨h, rfl⟩⟩, s.spansOf_replies _⟩
  | setFaults faults => exact ⟨⟨rfl, rfl, rfl, rfl, fun h => ⟨h, rfl⟩⟩, s.spansOf_replies _⟩
  | setOptions table options => exact ⟨⟨rfl, rfl, rfl, rfl, fun h => ⟨h, rfl⟩⟩, s.spansOf_replies _⟩

theorem dispatched_accept {worker : Nat} {marks : Marks} (h : s.workers[worker]? = some marks)
    (spans : List Span) :
    s.dispatched (.accept worker spans) = (s.started marks spans).filterMap Attempt.sent? := by
  have hattempts := congrArg (List.filterMap Attempt.sent?)
    (s.flights_attempts s.issued (s.started marks spans))
  rw [List.filterMap_map] at hattempts
  rw [dispatched, act, accept_batches h, List.drop_left, List.flatMap_singleton]
  exact hattempts

theorem dispatched_of_quiet {a : Action} (h : Quiet s (s.act a)) : s.dispatched a = [] := by
  rw [dispatched, List.drop_eq_nil_of_le (Nat.le_of_eq h.batches)]
  rfl

theorem dispatched_act (s : Service) (a : Action) :
    ((s.dispatched a).filter (!·.table.isNames), (s.act a).buckets) =
        ((plainDrafts s.writer (spansOf (s.reports a)) s.buckets).1.filterMap Attempt.sent?,
          (plainDrafts s.writer (spansOf (s.reports a)) s.buckets).2) ∧
      (s.act a).writer = s.writer := by
  have nothing : Quiet s (s.act a) → spansOf (s.reports a) = [] →
      ((s.dispatched a).filter (!·.table.isNames), (s.act a).buckets) =
          ((plainDrafts s.writer (spansOf (s.reports a)) s.buckets).1.filterMap Attempt.sent?,
            (plainDrafts s.writer (spansOf (s.reports a)) s.buckets).2) ∧
        (s.act a).writer = s.writer := by
    intro hquiet hspans
    rw [hspans, dispatched_of_quiet hquiet, hquiet.buckets]
    exact ⟨rfl, hquiet.writer⟩
  cases haccept : Action.isAccept a with
  | false =>
    obtain ⟨hquiet, hspans⟩ := quiet_act haccept s
    exact nothing hquiet hspans
  | true =>
    cases a with
    | accept worker spans =>
      cases h : s.workers[worker]? with
      | none =>
        apply nothing
        · rw [act, accept_of_none h]
          exact .refl s
        · rw [reports_accept_of_none h]
          rfl
      | some marks =>
        rw [spansOf_reports_accept h, ← started_unmarked s marks, dispatched_accept h,
          sent_unmarked, act, accept_eq h]
        exact ⟨rfl, rfl⟩
    | _ => cases haccept

theorem dispatches_run (s : Service) (actions : List Action) :
    (s.dispatches actions).filter (!·.table.isNames) =
        (plainDrafts s.writer (spansOf (s.history actions)) s.buckets).1.filterMap Attempt.sent? ∧
      (s.run actions).buckets =
        (plainDrafts s.writer (spansOf (s.history actions)) s.buckets).2 := by
  induction actions generalizing s with
  | nil => exact ⟨rfl, rfl⟩
  | cons a rest ih =>
    obtain ⟨hact, hwriter⟩ := s.dispatched_act a
    obtain ⟨hfirst, hbuckets⟩ := Prod.mk.inj hact
    obtain ⟨hrest, hleft⟩ := ih (s.act a)
    rw [hwriter, hbuckets] at hrest hleft
    rw [history, spansOf_append, plainDrafts_append, dispatches, List.filter_append, hfirst, hrest,
      List.filterMap_append, run_cons, hleft]
    exact ⟨rfl, rfl⟩

theorem log_act (hgate : s.gate = []) (hheld : s.held = []) (a : Action) :
    (s.act a).gate = [] ∧ (s.act a).held = [] ∧
      (s.act a).store.log = s.store.log ++ s.dispatched a := by
  have nothing : Quiet s (s.act a) → (s.act a).gate = [] ∧ (s.act a).held = [] ∧
      (s.act a).store.log = s.store.log ++ s.dispatched a := by
    intro hquiet
    rw [dispatched_of_quiet hquiet, List.append_nil]
    exact ⟨hquiet.gate.trans hgate, hquiet.log hheld⟩
  cases haccept : Action.isAccept a with
  | false => exact nothing (quiet_act haccept s).1
  | true =>
    cases a with
    | accept worker spans =>
      cases h : s.workers[worker]? with
      | none =>
        apply nothing
        rw [act, accept_of_none h]
        exact .refl s
      | some marks =>
        have hback := s.heldBack_statements s.issued (s.started marks spans)
        have hdirect := s.direct_statements (s.started marks spans)
        simp only [hgate, List.not_mem_nil, decide_false, List.filter_false, List.map_eq_nil_iff,
          not_false_eq_true, decide_true, List.filter_true] at hback hdirect
        rw [dispatched_accept h, act, accept_eq h, hback, hdirect, hheld]
        exact ⟨hgate, rfl, Keyspace.tellAll_log⟩
    | _ => cases haccept

theorem log_run (hgate : s.gate = []) (hheld : s.held = []) (actions : List Action) :
    (s.run actions).store.log = s.store.log ++ s.dispatches actions := by
  induction actions generalizing s with
  | nil => exact (List.append_nil _).symm
  | cons a rest ih =>
    obtain ⟨hgate', hheld', hlog⟩ := log_act hgate hheld a
    rw [run_cons, ih hgate' hheld', hlog, dispatches, List.append_assoc]

end Service

namespace Setup

variable {setup setup' : Setup} {s s' : Service}

theorem eq_of_mapError {α β γ : Type} {e : Except α γ} {f : α → β} {a : γ}
    (h : e.mapError f = .ok a) : e = .ok a := by
  cases e with
  | error => cases h
  | ok b => exact congrArg _ (Except.ok.inj h)

theorem validate_eq {settings valid : Settings} (h : settings.validate = .ok valid) :
    valid = settings := by
  simp only [Settings.validate] at h
  repeat' split at h
  · cases h
  · cases h
  · cases h
  · cases h
  · exact (Except.ok.inj h).symm

theorem bucketsOf_eq_ok {settings : Settings} {words : Words} {random : RandomBuckets}
    {durations : DurationBuckets} (h : bucketsOf settings words = .ok (random, durations)) :
    RandomBuckets.ofWords? settings.bucketCount words = some random ∧
      DurationBuckets.ofWindow? settings.durationWindow = some durations := by
  simp only [bucketsOf] at h
  split at h
  · split at h
    · cases h
      exact ⟨‹_›, ‹_›⟩
    · cases h
  · cases h

theorem openService_parts (h : setup.openService = .ok s) :
    RandomBuckets.ofWords? setup.settings.bucketCount setup.words = some s.buckets ∧
    DurationBuckets.ofWindow? setup.settings.durationWindow = some s.writer.durations ∧
    ExpiryPolicy.resolve setup.metadata setup.settings.spanTtl setup.settings.indexTtl =
      .ok s.writer.expiry ∧
    s.writer.codec = setup.codec ∧ s.writer.keyLimit = setup.settings.keyLimit := by
  simp only [openService, bind, Except.bind] at h
  split at h
  · cases h
  rename_i valid hvalid
  obtain rfl := validate_eq (eq_of_mapError hvalid)
  split at h
  · cases h
  rename_i buckets hbuckets
  obtain ⟨hrandom, hdurations⟩ := bucketsOf_eq_ok hbuckets
  split at h
  · cases h
  split at h
  · cases h
  rename_i expiry hexpiry
  cases h
  exact ⟨hrandom, hdurations, eq_of_mapError hexpiry, rfl, rfl⟩

theorem resolve_congr {m m' : Metadata} (h : m.options = m'.options) (span index : UInt32) :
    ExpiryPolicy.resolve m span index = ExpiryPolicy.resolve m' span index := by
  simp only [ExpiryPolicy.resolve, ExpiryPolicy.resolveTable, h]

theorem writer_congr (opened : setup.openService = .ok s) (opened' : setup'.openService = .ok s')
    (words : setup.words = setup'.words) (codec : setup.codec = setup'.codec)
    (options : setup.metadata.options = setup'.metadata.options)
    (settings : setup'.settings =
      { setup.settings with dedupMillis := setup'.settings.dedupMillis }) :
    s.writer = s'.writer ∧ s.buckets = s'.buckets := by
  obtain ⟨hrandom, hdurations, hexpiry, hcodec, hlimit⟩ := openService_parts opened
  obtain ⟨hrandom', hdurations', hexpiry', hcodec', hlimit'⟩ := openService_parts opened'
  rw [settings, ← words] at hrandom'
  rw [settings] at hdurations' hexpiry' hlimit'
  rw [← resolve_congr options] at hexpiry'
  have hbuckets : s.buckets = s'.buckets := Option.some.inj (hrandom.symm.trans hrandom')
  have hwindows := Option.some.inj (hdurations.symm.trans hdurations')
  have hexpiries := Except.ok.inj (hexpiry.symm.trans hexpiry')
  refine ⟨?_, hbuckets⟩
  rw [← codec] at hcodec'
  cases hw : s.writer
  cases hw' : s'.writer
  simp_all

end Setup

namespace Service

/-- The statements of a run that are spread go to the buckets that are drawn next. -/
theorem spread_run (s : Service) (actions : List Action) :
    let spread := (s.dispatches actions).filter (·.table.isSpread)
    spread.map (·.get? "bucket") = (s.buckets.draws spread.length).1.map (some <| .int ·) ∧
      (s.run actions).buckets = (s.buckets.draws spread.length).2 := by
  obtain ⟨hplain, hleft⟩ := s.dispatches_run actions
  have hspread : (s.dispatches actions).filter (·.table.isSpread) =
      ((s.dispatches actions).filter (!·.table.isNames)).filter (·.table.isSpread) := by
    rw [List.filter_filter]
    apply List.filter_congr
    intro st _
    cases st.table <;> rfl
  rw [hspread, hplain, hleft]
  exact Desk.drafts_buckets s.writer _ s.buckets

/-- Two runs that accept the same spans send the same statements besides those of names, in the same
order, whatever else differs: the cut into batches, the workers, clocks and windows, the faults, and
which batches are looked at or given up. The statements that are spread go to the results that the
stream of the seed leads to, one after the other, and the stream that is left begins with the next
one. -/
theorem plain_statements_determined (setup setup' : Setup) (s s' : Service) (seed : UInt64)
    (actions actions' : List Action)
    (opened : setup.openService = .ok s) (opened' : setup'.openService = .ok s')
    (seeded : setup.seed = some seed) (seeded' : setup'.seed = some seed)
    (codec : setup.codec = setup'.codec)
    (options : setup.metadata.options = setup'.metadata.options)
    (settings : setup'.settings =
      { setup.settings with dedupMillis := setup'.settings.dedupMillis })
    (spans : spansOf (s.history actions) = spansOf (s'.history actions')) :
    (s.dispatches actions).filter (!·.table.isNames) =
        (s'.dispatches actions').filter (!·.table.isNames) ∧
      (let spread := (s.dispatches actions).filter (·.table.isSpread)
        let drawn := (Words.seeded seed).results setup.settings.bucketCount spread.length
        spread.map (·.get? "bucket") = drawn.1.map (some <| .int ·.toInt32) ∧
        (s.run actions).buckets.words = drawn.2 ∧
        (s.run actions).buckets.count = setup.settings.bucketCount) ∧
      (setup.gate = [] → (s.run actions).store.log = setup.store.log ++ s.dispatches actions) := by
  have hwords : setup.words = .seeded seed := by rw [Setup.words, seeded]; rfl
  have hwords' : setup'.words = .seeded seed := by rw [Setup.words, seeded']; rfl
  obtain ⟨hwriter, hbuckets⟩ := Setup.writer_congr opened opened' (hwords.trans hwords'.symm) codec
    options settings
  refine ⟨?_, ?_, ?_⟩
  · rw [(s.dispatches_run actions).1, (s'.dispatches_run actions').1, spans, hwriter, hbuckets]
  · obtain ⟨hcount, hstream⟩ :=
      RandomBuckets.parts_of_ofWords? (Setup.openService_parts opened).1
    obtain ⟨hdrawn, hleft⟩ := s.spread_run actions
    obtain ⟨hresults, hstate, hsame⟩ := s.buckets.draws_eq_results
      ((s.dispatches actions).filter (·.table.isSpread)).length
    rw [hstream, hwords, hcount] at hresults hstate
    rw [hresults, List.map_map] at hdrawn
    rw [← hleft] at hstate hsame
    exact ⟨hdrawn, hstate, hsame.trans hcount⟩
  · intro hgate
    obtain ⟨_, _, _, _, rfl⟩ := Setup.openService_eq_ok opened
    exact log_run hgate rfl actions

theorem plain_statements_determined_web :
    let setup' := { Setup.zipkin with
      settings := { dedupMillis := 1000 }, clock := ⟨5⟩, gate := [.serviceNames] }
    let other := setup'.service zipkin.schema zipkin.writer.expiry zipkin.buckets .daily
    let timed : Span := { Span.of "web" "get" with timestamp := some 1 }
    let actions : List Action := [.hire, .accept 0 [timed, timed]]
    let actions' : List Action := [.hire, .hire, .setFaults [.onTable .traces (.timeout "slow")],
      .accept 1 [timed], .drop 0, .setClock ⟨2000⟩, .accept 0 [timed]]
    Setup.zipkin.openService = .ok zipkin ∧ setup'.openService = .ok other ∧
    spansOf (zipkin.history actions) = spansOf (other.history actions') ∧
    (zipkin.dispatches actions).filter (!·.table.isNames) =
      (other.dispatches actions').filter (!·.table.isNames) ∧
    ((zipkin.dispatches actions).filter (·.table.isSpread)).map (·.get? "bucket") =
      [8, 7, 5, 8, 0, 2].map (some <| .int ·) ∧
    (zipkin.run actions).buckets.words = ⟨(Words.seeded 0).key, 10⟩ := by
  intro setup' other timed actions actions'
  have opened' : setup'.openService = .ok other := by
    simp only [setup', Setup.zipkin, other, Setup.openService]
    rfl
  have spans : spansOf (zipkin.history actions) = spansOf (other.history actions') := by
    decide +kernel
  have spread : ((zipkin.dispatches actions).filter (·.table.isSpread)).length = 6 := by
    decide +kernel
  have six : (Words.seeded 0).results 10 6 =
      ([8, 7, 5, 8, 0, 2], ⟨(Words.seeded 0).key, 10⟩) := by decide +kernel
  obtain ⟨same, ⟨drawn, left, -⟩, -⟩ := plain_statements_determined Setup.zipkin setup' _ _ 0
    actions actions' zipkin_opened opened' rfl rfl rfl rfl rfl spans
  have bound : Setup.zipkin.settings.bucketCount = 10 := rfl
  rw [spread, bound, six] at drawn left
  exact ⟨zipkin_opened, opened', spans, same, drawn, left⟩

end Service

end TraceIndex
