import TraceIndex.Proofs.Names
import TraceIndex.Proofs.Runs

namespace TraceIndex

namespace Flight

variable {f : Flight}

theorem outcome?_eq_ok :
    f.outcome? = some (.ok ()) ↔
      ∃ st, f.attempt.statement = .ok st ∧ f.reply = some (.ok ()) := by
  cases hs : f.attempt.statement with
  | error failure => simp [outcome?, hs]
  | ok st =>
    obtain hr | ⟨failure, hr⟩ | hr : f.reply = none ∨ (∃ failure, f.reply = some (.error failure)) ∨
        f.reply = some (.ok ()) := by
      cases f.reply with
      | none => exact .inl rfl
      | some r =>
        cases r with
        | error failure => exact .inr (.inl ⟨failure, rfl⟩)
        | ok => exact .inr (.inr rfl)
    · simp [outcome?, hs, hr]
    · simp [outcome?, hs, hr, Except.mapError]
    · simp [outcome?, hs, hr, Except.mapError]

def HasFailed (f : Flight) : Prop := ∃ failure, f.outcome? = some (.error failure)

end Flight

namespace Batch

variable {b : Batch} {f : Flight} {rest : List Flight}

theorem of_state_ok (h : b.state = .done (.ok ())) : ¬ b.Spoilt ∧ b.outstanding = [] := by
  simp only [state] at h
  split at h
  · cases h
  · rename_i hfailure
    split at h
    · cases h
    · rename_i hdropped
      split at h
      · rename_i hempty
        exact ⟨by simp [Spoilt, hfailure, hdropped], by simpa [outstanding] using hempty⟩
      · cases h

theorem scan_of_ok (hready : b.ready = f :: rest) (hf : f.outcome? = some (.ok ())) :
    b.scan = b := by
  have hknown : f.isKnown = true := by simp [Flight.isKnown, hf]
  obtain ⟨worker, size, ready, waiting, failure, isDropped⟩ := b
  simp only at hready
  subst hready
  simp [scan, hknown]

theorem look?_of_ok (hready : b.ready = f :: rest) (hf : f.outcome? = some (.ok ())) :
    b.look? = some (f, .ok (), { b with ready := rest }) := by
  simp only [look?, hready, hf]

theorem replies_ok (tickets : List Nat) (hw : b.waiting = [])
    (hready : ∀ f ∈ b.ready, ∃ st, f.attempt.statement = .ok st ∧
      (f.reply = some (.ok ()) ∨ f.ticket ∈ tickets)) :
    ∃ ready, tickets.foldl (fun b ticket => b.reply ticket (.ok ())) b = { b with ready } ∧
      ready.length = b.ready.length ∧ ∀ f ∈ ready, f.outcome? = some (.ok ()) := by
  induction tickets generalizing b with
  | nil =>
    refine ⟨b.ready, rfl, rfl, ?_⟩
    intro f hf
    obtain ⟨st, hst, hreply | hticket⟩ := hready f hf
    · exact Flight.outcome?_eq_ok.mpr ⟨st, hst, hreply⟩
    · cases hticket
  | cons ticket tickets ih =>
    have hstep : b.reply ticket (.ok ()) =
        { b with ready := b.ready.map (answer ticket (.ok ())) } := by
      simp [reply, hw]
    rw [List.foldl_cons, hstep]
    have hlen : (b.ready.map (answer ticket (.ok ()))).length = b.ready.length := List.length_map ..
    rw [← hlen]
    refine @ih { b with ready := b.ready.map (answer ticket (.ok ())) } hw ?_
    intro f hf
    obtain ⟨g, hg, rfl⟩ := List.mem_map.mp hf
    obtain ⟨st, hst, hcase⟩ := hready g hg
    refine ⟨st, by rw [(answer_attempt _ _ g).1, hst], ?_⟩
    by_cases hticket : g.ticket = ticket
    · exact .inl (by simp [answer, hticket])
    · have hsame : answer ticket (.ok ()) g = g := if_neg hticket
      rw [hsame]
      obtain hreply | hmem := hcase
      · exact .inl hreply
      · exact .inr ((List.mem_cons.mp hmem).resolve_left hticket)

end Batch

namespace Service

variable {s t : Service} {i j : Nat} {b : Batch}

def HasFailure (s : Service) (i : Nat) : Prop :=
  ∃ b, s.batches[i]? = some b ∧ ∃ f ∈ b.outstanding, f.HasFailed

theorem observe_of_ok (hb : s.batches[i]? = some b) {f : Flight} {rest : List Flight}
    (hready : b.ready = f :: rest) (hf : f.outcome? = some (.ok ())) :
    s.observe i = s.setBatch i { b with ready := rest } := by
  obtain ⟨st, hst, hreply⟩ := Flight.outcome?_eq_ok.mp hf
  have hlearn : s.learn f = s := by simp [learn, Flight.storeFailure?, hst, hreply]
  have hcount : s.countBatch b { b with ready := rest } = s := by
    cases hfailure : b.failure <;> simp [countBatch, Batch.failsBy, hfailure]
  simp only [observe, hb, Batch.scan_of_ok hready hf, Batch.look?_of_ok hready hf, hlearn,
    settleMark, hcount]

theorem run_observes (hb : s.batches[i]? = some b)
    (hok : ∀ f ∈ b.ready, f.outcome? = some (.ok ())) :
    s.run (List.replicate b.ready.length (.observe i)) = s.setBatch i { b with ready := [] } := by
  obtain ⟨worker, size, ready, waiting, failure, isDropped⟩ := b
  induction ready generalizing s with
  | nil => exact (setBatch_self hb).symm
  | cons f rest ih =>
    have hstep := observe_of_ok hb rfl (hok f List.mem_cons_self)
    have hb' : (s.setBatch i ⟨worker, size, rest, waiting, failure, isDropped⟩).batches[i]? =
        some ⟨worker, size, rest, waiting, failure, isDropped⟩ := getElem?_set_of_some hb _
    have hrest := ih hb' fun g hg => hok g (List.mem_cons_of_mem _ hg)
    change (s.observe i).run (List.replicate rest.length (.observe i)) = _
    rw [hstep]
    apply hrest.trans
    simp only [setBatch, List.set_set]

theorem drop_of_ne (h : j ≠ i) : (s.drop j).batches[i]? = s.batches[i]? := by
  simp only [drop]
  split
  · rfl
  · split
    · exact List.getElem?_set_ne h
    · rfl

theorem drop_not_pending (i : Nat) (s : Service) : (s.drop i).batchState? i ≠ some .pending := by
  cases hb : s.batches[i]? with
  | none => simp [drop, hb, batchState?]
  | some b =>
    by_cases hpending : b.isPending
    · have hstate : b.state = .pending := by
        simp only [Batch.isPending] at hpending
        split at hpending
        · assumption
        · cases hpending
      have hnone : b.failure = none := by
        cases hfailure : b.failure with
        | none => rfl
        | some failure => simp [Batch.state, hfailure] at hstate
      have hdrop : s.drop i = s.forget i { b with isDropped := true } := by
        simp only [drop, hb, hpending, ↓reduceIte]
      have hget : (s.drop i).batches[i]? = some (Batch.forget { b with isDropped := true }) := by
        rw [hdrop]
        exact getElem?_set_of_some hb _
      rw [batchState?, hget]
      simp [Batch.state, Batch.forget, hnone]
    · intro h
      simp only [drop, hb, hpending, Bool.false_eq_true, ↓reduceIte, batchState?, Option.map_some,
        Option.some.injEq] at h
      simp [Batch.isPending, h] at hpending

def drops (n : Nat) : List Action := (List.range n).map .drop

theorem run_drops (n : Nat) (s : Service) :
    (∀ j < n, (s.run (drops n)).batchState? j ≠ some .pending) ∧
      ∀ i, n ≤ i → (s.run (drops n)).batches[i]? = s.batches[i]? := by
  induction n with
  | zero => exact ⟨fun j hj => absurd hj (Nat.not_lt_zero j), fun i _ => rfl⟩
  | succ n ih =>
    obtain ⟨hdone, hlater⟩ := ih
    have hrun : s.run (drops (n + 1)) = (s.run (drops n)).drop n := by
      rw [drops, List.range_succ, List.map_append, run_append]
      rfl
    rw [hrun]
    constructor
    · intro j hj
      by_cases hjn : j = n
      · subst j
        exact drop_not_pending n _
      · have hlt : j < n := by omega
        rw [batchState?, drop_of_ne (Ne.symm hjn)]
        exact hdone j hlt
    · intro i hi
      rw [drop_of_ne (by omega)]
      exact hlater i (by omega)

theorem history_quiet {actions : List Action}
    (h : ∀ a ∈ actions, ∀ s : Service, s.reports a = []) (s : Service) :
    s.history actions = [] := by
  induction actions generalizing s with
  | nil => rfl
  | cons a rest ih =>
    obtain ⟨ha, hrest⟩ := List.forall_mem_cons.mp h
    rw [history, ha s, ih hrest, List.append_nil]

theorem reports_observe (i : Nat) (s : Service) : s.reports (.observe i) = [] := by
  obtain ⟨_, _, _, _, hframe⟩ := (tending_observe i s).frame
  exact replies_of_log (by rw [act, hframe])

theorem reports_drop (i : Nat) (s : Service) : s.reports (.drop i) = [] := by
  obtain ⟨_, _, _, _, hframe⟩ := (tending_drop s i).frame
  exact replies_of_log (by rw [act, hframe])

theorem reports_setFaults (faults : List Fault) (s : Service) :
    s.reports (.setFaults faults) = [] := replies_of_log rfl

section Ending

variable {worker : Nat} {marks : Marks} {spans : List Span}

/-- A write that has been started is done, has failed or is held back. -/
theorem done_or_heldBack {f : Flight} (hf : f ∈ s.flights s.issued (s.started marks spans))
    (hfine : ¬ f.HasFailed) :
    ∃ st, f.attempt.statement = .ok st ∧ (f.reply = some (.ok ()) ∨
      f.ticket ∈ (s.heldBack s.issued (s.started marks spans)).map (·.1)) := by
  obtain ⟨i, a, ha, rfl⟩ := mem_flights hf
  cases hst : a.statement with
  | error failure =>
    refine absurd ⟨failure, ?_⟩ hfine
    simp [flight, Flight.outcome?, hst]
  | ok st =>
    have hsent : a.sent? = some st := Attempt.sent?_eq_some.mpr hst
    refine ⟨st, hst, ?_⟩
    by_cases hg : st.table ∈ s.gate
    · have hheld : (s.issued + i, st) ∈ s.heldBack s.issued (s.started marks spans) :=
        heldBack_of_gated ha hsent hg
      exact .inr (List.mem_map.mpr ⟨_, hheld, rfl⟩)
    · have hdirect : s.direct? a = some st := by simp [direct?, hsent, hg, Option.filter]
      cases hreply : (s.store.execute st).1 with
      | ok => exact .inl (by simp [flight, hdirect, hreply])
      | error failure =>
        refine absurd ⟨Flight.failureOf st failure, ?_⟩ hfine
        simp [flight, Flight.outcome?, hst, hdirect, hreply, Except.mapError]

/-- Releases what is held back of a batch that has just been accepted, with no faults left, looks at
all its writes, and gives up the batches before it. -/
def ending (s : Service) (marks : Marks) (spans : List Span) : List Action :=
  .setFaults [] :: releases (s.heldBack s.issued (s.started marks spans)) ++
    List.replicate (s.started marks spans).length (.observe s.batches.length) ++
    drops s.batches.length

theorem heldBack_nodup (s : Service) (marks : Marks) (spans : List Span) :
    ((s.heldBack s.issued (s.started marks spans)).map (·.1)).Nodup :=
  (heldBack_tickets _ _ _).imp Nat.ne_of_lt

theorem clear_ticketed (h : s.workers[worker]? = some marks) (hs : s.Ticketed) :
    ((s.accept worker spans).act (.setFaults [])).Ticketed :=
  (ticketed_accept h hs).frame rfl rfl

theorem heldBack_sub (h : s.workers[worker]? = some marks) :
    ∀ g ∈ s.heldBack s.issued (s.started marks spans),
      g ∈ ((s.accept worker spans).act (.setFaults [])).held := by
  intro g hg
  change g ∈ (s.accept worker spans).held
  rw [accept_held h]
  exact List.mem_append_right _ hg

theorem history_ending (h : s.workers[worker]? = some marks) (hs : s.Ticketed) {st : Statement}
    {r : Except StoreFailure Unit}
    (hst : .answered st r ∈ (s.accept worker spans).history (s.ending marks spans)) :
    ∃ a ∈ s.started marks spans, a.sent? = some st := by
  have hobserves : ∀ a ∈ List.replicate (s.started marks spans).length
      (Action.observe s.batches.length), ∀ s : Service, s.reports a = [] := by
    intro a ha s
    rw [List.eq_of_mem_replicate ha]
    exact reports_observe _ s
  have hdrops : ∀ a ∈ drops s.batches.length, ∀ s : Service, s.reports a = [] := by
    intro a ha s
    obtain ⟨j, -, rfl⟩ := List.mem_map.mp ha
    exact reports_drop j s
  rw [ending, history_append, history_append, history_quiet hobserves, history_quiet hdrops,
    List.append_nil, List.append_nil, history, reports_setFaults, List.nil_append,
    history_releases (clear_ticketed h hs) (heldBack_nodup s marks spans) (heldBack_sub h)] at hst
  obtain ⟨g, hg, heq⟩ := List.mem_map.mp hst
  cases heq
  obtain ⟨k, a, ha, -, hsent, -⟩ := mem_heldBack hg
  exact ⟨a, List.mem_of_getElem? ha, hsent⟩

theorem batch_released (h : s.workers[worker]? = some marks) (hs : s.Ticketed)
    (hfine : ¬ (s.accept worker spans).HasFailure s.batches.length) :
    ∃ ready : List Flight,
      (((s.accept worker spans).act (.setFaults [])).run
        (releases (s.heldBack s.issued (s.started marks spans)))).batches[s.batches.length]? =
          some { Batch.ofFlights worker (s.flights s.issued (s.started marks spans)) with ready } ∧
      ready.length = (s.started marks spans).length ∧
      ∀ f ∈ ready, f.outcome? = some (.ok ()) := by
  let t := (s.accept worker spans).act (.setFaults [])
  let chosen := s.heldBack s.issued (s.started marks spans)
  let b := Batch.ofFlights worker (s.flights s.issued (s.started marks spans))
  have hb : (s.accept worker spans).batches[s.batches.length]? = some b :=
    batch_accept h spans
  have hready : ∀ f ∈ b.ready, ∃ st, f.attempt.statement = .ok st ∧
      (f.reply = some (.ok ()) ∨ f.ticket ∈ chosen.map (·.1)) := by
    intro f hf
    apply done_or_heldBack hf
    intro hfailed
    exact hfine ⟨b, hb, f, List.mem_append_left _ hf, hfailed⟩
  have hok : ∀ g ∈ chosen, (t.store.execute g.2).1 = .ok () := by
    intro g hg
    obtain ⟨i, a, ha, -, hsent, -⟩ := mem_heldBack hg
    exact execute_started (List.mem_of_getElem? ha) hsent rfl
  -- Without faults all replies are alike, and only the tickets tell them apart.
  have hfold : chosen.foldl (fun b g => b.reply g.1 (t.store.execute g.2).1) b =
      (chosen.map (·.1)).foldl (fun b ticket => b.reply ticket (.ok ())) b := by
    rw [List.foldl_map]
    apply List.foldl_ext
    intro b g hg
    rw [hok g hg]
  obtain ⟨ready, hreplies, hlen, hdone⟩ := Batch.replies_ok (chosen.map (·.1)) rfl hready
  refine ⟨ready, ?_, ?_, hdone⟩
  · rw [run_releases (clear_ticketed h hs) (heldBack_nodup s marks spans) (heldBack_sub h)]
    have hb' : t.batches[s.batches.length]? = some b := hb
    rw [List.getElem?_map, hb', Option.map_some, hfold, hreplies]
  · have hattempts := congrArg List.length (s.flights_attempts s.issued (s.started marks spans))
    rw [List.length_map] at hattempts
    exact hlen.trans hattempts

theorem batch_ending (h : s.workers[worker]? = some marks) (hs : s.Ticketed)
    (hfine : ¬ (s.accept worker spans).HasFailure s.batches.length) :
    let t := (s.accept worker spans).run (s.ending marks spans)
    t.batchState? s.batches.length = some (.done (.ok ())) ∧
      ∀ j < s.batches.length, t.batchState? j ≠ some .pending := by
  obtain ⟨ready, hb, hlen, hok⟩ := batch_released h hs hfine
  let t := ((s.accept worker spans).act (.setFaults [])).run
    (releases (s.heldBack s.issued (s.started marks spans)))
  have hlooked := run_observes hb hok
  have hrun : (s.accept worker spans).run (s.ending marks spans) =
      (t.run (List.replicate ready.length (.observe s.batches.length))).run
        (drops s.batches.length) := by
    rw [hlen, ending, run_append, run_append]
    rfl
  rw [hrun]
  obtain ⟨hdropped, hkept⟩ := run_drops s.batches.length
    (t.run (List.replicate ready.length (.observe s.batches.length)))
  refine ⟨?_, hdropped⟩
  rw [batchState?, hkept _ (Nat.le_refl _), hlooked, setBatch, getElem?_set_of_some hb]
  rfl

end Ending

end Service

end TraceIndex
