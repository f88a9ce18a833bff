import TraceIndex.Proofs.Ledger

namespace TraceIndex

def Report.statement? : Report → Option Statement
  | .answered st _ => some st
  | .accepted _ => none

def answeredOf (past : List Report) : List Statement := past.filterMap Report.statement?

theorem answeredOf_append (past more : List Report) :
    answeredOf (past ++ more) = answeredOf past ++ answeredOf more :=
  List.filterMap_append

theorem Notice.isError_iff (n : Notice) : n.level = "ERROR" ↔ n.failure?.isSome := by
  cases n <;> simp [level, failure?]

theorem Notice.eq_of_failure {n : Notice} {st : Statement} {failure : StoreFailure}
    (h : n.failure? = some (st, failure)) : n = .writeFailed st failure := by
  cases n with
  | writeFailed => simp_all [failure?]
  | unreplicated | untimedSpan | undrained => cases h

namespace Service

variable {s t : Service} {past : List Report} {sent : List Statement} {actions : List Action}

/-- What holds of the counters of accepted spans after every run, given what was told of it and which
statements were sent: each statement was answered or is held back, and each entry of the spans was
sent, rejected or skipped. -/
structure Tally (past : List Report) (sent : List Statement) (s : Service) : Prop where
  ticketed : s.Ticketed
  accepted : s.metrics.spansAccepted = (spansOf past).length
  dispatched : s.metrics.writesDispatched = sent.length
  answered : (answeredOf past ++ s.held.map (·.2)).Perm sent
  entries : s.metrics.writesDispatched + s.metrics.writesRejected +
    s.metrics.dimensionWritesSkipped = (entriesOf (spansOf past)).length

theorem Tally.learns {seen lost : List Flight} (h : Tally past sent s) (hl : s.Learns t seen lost) :
    Tally past sent t := by
  have hsame := hl.onAccept
  simp only [Metrics.onAccept, Metrics.mk.injEq, true_and] at hsame
  obtain ⟨haccepted, hdispatched, hrejected, hskipped⟩ := hsame
  refine ⟨h.ticketed.frame hl.held hl.issued, haccepted.trans h.accepted,
    hdispatched.trans h.dispatched, ?_, ?_⟩
  · rw [hl.held]
    exact h.answered
  · rw [hdispatched, hrejected, hskipped]
    exact h.entries

theorem dispatched_split {worker : Nat} {marks : Marks} (h : s.workers[worker]? = some marks)
    (spans : List Span) :
    (answeredOf (s.reports (.accept worker spans)) ++
        (s.heldBack s.issued (s.started marks spans)).map (·.2)).Perm
      (s.dispatched (.accept worker spans)) := by
  have hanswered : answeredOf (s.reports (.accept worker spans)) =
      (s.started marks spans).filterMap s.direct? := by
    have hspans : answeredOf (spans.map .accepted) = [] := by
      simp [answeredOf, Report.statement?]
    rw [reports_accept h, answeredOf_append, hspans, List.nil_append, answeredOf,
      List.filterMap_map]
    exact List.filterMap_some
  rw [hanswered, direct_statements, heldBack_statements, dispatched_accept h]
  simp only [decide_not]
  exact List.perm_append_comm.trans (List.filter_append_perm _ _)

theorem Tally.accept {worker : Nat} {marks : Marks} (hs : Tally past sent s)
    (h : s.workers[worker]? = some marks) (spans : List Span) :
    Tally (past ++ s.reports (.accept worker spans)) (sent ++ s.dispatched (.accept worker spans))
      (s.accept worker spans) := by
  refine ⟨ticketed_accept h hs.ticketed, ?_, ?_, ?_, ?_⟩
  · rw [metrics_accept h, spansOf_append, spansOf_reports_accept h, List.length_append, hs.accepted]
  · rw [metrics_accept h, List.length_append, hs.dispatched]
  · rw [answeredOf_append, accept_held h, List.map_append]
    have hmoved := hs.answered.append (dispatched_split h spans)
    simp only [List.append_assoc] at hmoved ⊢
    exact ((List.perm_append_comm_assoc ..).append_left _).trans hmoved
  · have hentries := length_walk h spans
    have hbefore := hs.entries
    rw [spansOf_append, spansOf_reports_accept h, entriesOf_append, List.length_append,
      ← hbefore, ← hentries, metrics_accept h]
    simp only
    omega

theorem held_perm (hs : s.Ticketed) {h : Nat × Statement} (hmem : h ∈ s.held) :
    (h :: s.held.filter (·.1 ≠ h.1)).Perm s.held := by
  have hdistinct : (s.held.map (·.1)).Nodup := hs.sorted.imp Nat.ne_of_lt
  have herase : s.held.filter (·.1 ≠ h.1) = s.held.erase h := by
    rw [hdistinct.of_map.erase_eq_filter]
    apply List.filter_congr
    intro g hg
    have hsame : g.1 = h.1 ↔ g = h :=
      ⟨List.inj_on_of_nodup_map hdistinct hg hmem, congrArg Prod.fst⟩
    rw [bne, beq_eq_decide, ← decide_not, decide_eq_decide, ne_eq, hsame]
  rw [herase]
  exact (List.perm_cons_erase hmem).symm

theorem Tally.resolve (hs : Tally past sent s) {h : Nat × Statement}
    (hh : s.heldUnder? h.1 = some h) (fate : Fate) :
    Tally (past ++ s.reports (.resolve fate h.1)) sent (s.resolveUnder fate h.1) := by
  have hspans : spansOf (past ++ s.reports (.resolve fate h.1)) = spansOf past := by
    rw [reports_resolve hh, spansOf_append]
    exact List.append_nil _
  have hmetrics : (s.resolveUnder fate h.1).metrics = s.metrics := by
    rw [resolveUnder_of_some hh]
  refine ⟨ticketed_resolve hs.ticketed fate hh, ?_, ?_, ?_, ?_⟩
  · rw [hspans, hmetrics]
    exact hs.accepted
  · rw [hmetrics]
    exact hs.dispatched
  · have hheld := (held_perm hs.ticketed (mem_held_of_heldUnder? hh).1).map (·.2)
    rw [reports_resolve hh, answeredOf_append, resolveUnder_of_some hh, List.append_assoc]
    exact (hheld.append_left _).trans hs.answered
  · rw [hspans, hmetrics]
    exact hs.entries

theorem tally_act (hs : Tally past sent s) (a : Action) :
    Tally (past ++ s.reports a) (sent ++ s.dispatched a) (s.act a) := by
  cases s.course a with
  | learns known untold unsent _ =>
    rw [untold, unsent, List.append_nil, List.append_nil]
    exact hs.learns known
  | accepts hired spans => exact hs.accept hired spans
  | resolves held fate =>
    rw [dispatched_of_quiet (quiet_resolve ..), List.append_nil]
    exact hs.resolve held fate

theorem tally_run (hs : Tally past sent s) (actions : List Action) :
    Tally (past ++ s.history actions) (sent ++ s.dispatches actions) (s.run actions) := by
  induction actions generalizing s past sent with
  | nil => simpa [history, dispatches] using hs
  | cons a rest ih =>
    have hrest := ih (tally_act hs a)
    rwa [List.append_assoc, List.append_assoc] at hrest

theorem tally_opened {setup : Setup} (opened : setup.openService = .ok s) : Tally [] [] s := by
  have hticketed := ticketed_opened opened
  obtain ⟨schema, expiry, random, durations, rfl⟩ := Setup.openService_eq_ok opened
  exact ⟨hticketed, rfl, rfl, .nil, rfl⟩

theorem ledger_opened {setup : Setup} (opened : setup.openService = .ok s) :
    Ledger [] s [] ∧ s.Awaited := by
  have hticketed := ticketed_opened opened
  obtain ⟨schema, expiry, random, durations, rfl⟩ := Setup.openService_eq_ok opened
  have hnothing : (setup.service schema expiry random durations).failuresTold = [] := by
    change (Setup.replicationNotices setup.metadata).filterMap Notice.failure? = []
    unfold Setup.replicationNotices
    split <;> rfl
  refine ⟨⟨⟨hticketed, .nil, fun f hf => absurd hf List.not_mem_nil,
    fun f hf => absurd hf List.not_mem_nil⟩, ?_, ?_⟩, fun h hh => absurd hh List.not_mem_nil⟩
  · rw [hnothing]
    rfl
  · rw [hnothing]
    exact .nil

theorem length_failuresTold (s : Service) :
    s.failuresTold.length = (s.notices.filter (·.level = "ERROR")).length := by
  rw [failuresTold, List.length_filterMap_eq_countP, List.countP_eq_length_filter]
  simp only [Notice.isError_iff, Bool.decide_eq_true]

/-- The counters of a service that was opened, after any run. Every statement that was sent was
answered or is held back; every entry of the spans was sent, rejected or skipped; a failure of the
store is counted at most once, when an operator is told of it. All of them are counted if somebody
looks at each batch until it is done and nothing of it is left. -/
theorem accounts_balance (setup : Setup) (s : Service) (actions : List Action)
    (opened : setup.openService = .ok s) :
    let t := s.run actions
    let past := s.history actions
    t.metrics.spansAccepted = (spansOf past).length ∧
    t.metrics.writesDispatched = (s.dispatches actions).length ∧
    (answeredOf past ++ t.held.map (·.2)).Perm (s.dispatches actions) ∧
    t.metrics.writesDispatched + t.metrics.writesRejected + t.metrics.dimensionWritesSkipped =
      ((spansOf past).map (·.normalize.entryCount)).sum ∧
    t.metrics.writesFailed ≤ (faultsOf past).length ∧
    t.metrics.writesFailed = (t.notices.filter (·.level = "ERROR")).length ∧
    (∀ notice ∈ t.notices, notice.level = "ERROR" →
      ∃ st failure, notice = .writeFailed st failure ∧ (st, failure) ∈ faultsOf past) ∧
    ((∀ i, .settleAlone i ∉ actions) →
      (∀ b ∈ t.batches, (∃ outcome, b.state = .done outcome) ∧ b.outstanding = []) →
      t.metrics.writesFailed = (faultsOf past).length) := by
  intro t past
  have htally : Tally past (s.dispatches actions) t := tally_run (tally_opened opened) actions
  obtain ⟨hledger, hawaited⟩ := ledger_opened opened
  obtain ⟨lost, hrun⟩ := ledger_run hledger actions
  -- Of what the store failed, the rest is unseen or lost.
  have hsub : t.failuresTold.Subperm (faultsOf past) := by
    refine (List.Sublist.subperm ?_).trans hrun.balance.subperm
    rw [List.append_assoc]
    exact List.sublist_append_left ..
  refine ⟨htally.accepted, htally.dispatched, htally.answered, ?_, ?_, ?_, ?_, ?_⟩
  · rw [htally.entries, length_entriesOf]
  · rw [hrun.counted]
    exact hsub.length_le
  · rw [hrun.counted, length_failuresTold]
  · intro notice hnotice herror
    obtain ⟨⟨st, failure⟩, hfailure⟩ := Option.isSome_iff_exists.mp (notice.isError_iff.mp herror)
    exact ⟨st, failure, Notice.eq_of_failure hfailure,
      hsub.subset (List.mem_filterMap.mpr ⟨notice, hnotice, hfailure⟩)⟩
  · intro looked done
    have hwhole := whole_run hledger hawaited looked fun b hb hdropped => by
      obtain ⟨outcome, hdone⟩ := (done b hb).1
      rw [hdropped] at hdone
      cases hdone
    have hunseen : t.unseen = [] := by
      have hnone : t.outstanding = [] := List.flatMap_eq_nil_iff.mpr fun b hb => (done b hb).2
      rw [unseen, hnone, List.filterMap_nil]
    have hbalance := hwhole.balance.length_eq
    rw [hunseen, List.append_nil, List.append_nil, ← hwhole.counted] at hbalance
    exact hbalance

theorem accounts_balance_shared :
    let actions : List Action :=
      [.hire, .hire, .setFaults [.onTable .serviceNames (.timeout "slow")], .accept 0 [.of "web" ""],
        .setFaults [], .accept 1 [.of "web" ""], .observe 0, .observe 0, .observe 1, .observe 1]
    let t := zipkin.run actions
    Setup.zipkin.openService = .ok zipkin ∧
    (∀ i, .settleAlone i ∉ actions) ∧
    (∀ b ∈ t.batches, (∃ outcome, b.state = .done outcome) ∧ b.outstanding = []) ∧
    t.metrics.writesFailed = (faultsOf (zipkin.history actions)).length ∧
    t.metrics.writesFailed = 1 := by
  intro actions t
  have looked : ∀ i, .settleAlone i ∉ actions := by simp [actions]
  have done : ∀ b ∈ t.batches, (∃ outcome, b.state = .done outcome) ∧ b.outstanding = [] := by
    intro b hb
    have hended : ∀ b ∈ t.batches, b.isDropped = false ∧ b.outstanding.isEmpty := by
      decide +kernel
    obtain ⟨hkept, hnone⟩ := hended b hb
    exact ⟨Batch.done_of_outstanding (List.isEmpty_iff.mp hnone) hkept, List.isEmpty_iff.mp hnone⟩
  obtain ⟨-, -, -, -, -, -, -, whole⟩ := accounts_balance _ zipkin actions zipkin_opened
  exact ⟨zipkin_opened, looked, done, whole looked done, by decide +kernel⟩

end Service

end TraceIndex
