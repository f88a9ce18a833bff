import TraceIndex.Proofs.Acknowledged
import TraceIndex.Proofs.Tickets

namespace TraceIndex

def Action.batch? : Action → Option Nat
  | .advance i _ | .observe i | .drop i | .settleAlone i => some i
  | _ => none

namespace Service

variable {s t u : Service} {i j : Nat} {b : Batch}

theorem advance_of_ne (h : j ≠ i) (place : Nat) :
    (s.advance j place).batches[i]? = s.batches[i]? := by
  simp only [advance]
  split
  · rfl
  · exact List.getElem?_set_ne h

theorem observe_eq (hb : s.batches[i]? = some b) :
    (s.observe i).batches = s.batches.set i b.watch := by
  cases hlook : b.scan.look? with
  | none => simp only [observe, hb, hlook, Batch.watch, setBatch]
  | some look =>
    obtain ⟨f, outcome, after⟩ := look
    obtain ⟨notices, metrics, hobserve⟩ := observe_of_look hb hlook
    simp only [hobserve, Batch.watch, hlook]

theorem observe_of_ne (h : j ≠ i) : (s.observe j).batches[i]? = s.batches[i]? := by
  cases hb : s.batches[j]? with
  | none => simp only [observe, hb]
  | some b => rw [observe_eq hb, List.getElem?_set_ne h]

theorem getElem?_observe (hb : s.batches[i]? = some b) :
    (s.observe i).batches[i]? = some b.watch := by
  rw [observe_eq hb, getElem?_set_of_some hb _]

theorem observeUntilFailure_of_ne (h : j ≠ i) (n : Nat) :
    (observeUntilFailure j n s).batches[i]? = s.batches[i]? := by
  induction n generalizing s with
  | zero => rfl
  | succ n ih =>
    simp only [observeUntilFailure]
    split
    · rfl
    · exact ih.trans (observe_of_ne h)

theorem settleAlone_of_ne (h : j ≠ i) : (s.settleAlone j).batches[i]? = s.batches[i]? := by
  have hlooked := observeUntilFailure_of_ne h (s.readyCount j) (s := s)
  simp only [settleAlone]
  split
  · exact hlooked
  · split
    · split
      · exact hlooked
      · exact (List.getElem?_set_ne h).trans hlooked
    · exact (drop_of_ne h).trans hlooked

theorem getElem?_act {a : Action} (h : a.batch? ≠ some i) (hb : s.batches[i]? = some b) :
    (s.act a).batches[i]? = some (b.replies (s.arrival a)) := by
  have apart : ∀ j, some j ≠ some i → j ≠ i := fun j hne heq => hne (congrArg some heq)
  cases a with
  | hire | look | setClock | setFaults | setOptions => exact hb
  | accept worker spans =>
    cases hw : s.workers[worker]? with
    | none =>
      rw [act, accept_of_none hw]
      exact hb
    | some marks =>
      rw [act, accept_batches hw, List.getElem?_append_left (List.getElem?_eq_some_iff.mp hb).1]
      exact hb
  | advance j place => exact (advance_of_ne (apart j h) place).trans hb
  | observe j => exact (observe_of_ne (apart j h)).trans hb
  | drop j => exact (drop_of_ne (apart j h)).trans hb
  | settleAlone j => exact (settleAlone_of_ne (apart j h)).trans hb
  | resolve fate ticket =>
    cases hh : s.heldUnder? ticket with
    | none =>
      simp only [act, resolveUnder_of_none hh, arrival, hh]
      exact hb
    | some held =>
      simp only [act, resolveUnder_of_some hh, arrival, hh, List.getElem?_map, hb]
      rfl

theorem getElem?_run {actions : List Action} (h : ∀ a ∈ actions, a.batch? ≠ some i)
    (hb : s.batches[i]? = some b) :
    (s.run actions).batches[i]? = some (b.replies (s.arrivals actions)) := by
  induction actions generalizing s b with
  | nil => exact hb
  | cons a rest ih =>
    obtain ⟨ha, hrest⟩ := List.forall_mem_cons.mp h
    have hsplit : b.replies (s.arrivals (a :: rest)) =
        (b.replies (s.arrival a)).replies ((s.act a).arrivals rest) := List.foldl_append
    rw [hsplit]
    exact ih hrest (getElem?_act ha hb)

theorem getElem?_settle (hb : s.batches[i]? = some b) :
    (s.settle i).batches[i]? = some b.settled := by
  have looked : ∀ n,
      (Nat.repeat (observe i) n s).batches[i]? = some (Nat.repeat Batch.watch n b) := by
    intro n
    induction n with
    | zero => exact hb
    | succ n ih => exact getElem?_observe ih
  have hcount : s.readyCount i = b.ready.length := by simp only [readyCount, hb]; rfl
  rw [settle, looked, hcount, Batch.repeat_watch]

theorem tending_settle (i : Nat) (s : Service) : Tending s (s.settle i) := by
  have looked : ∀ n, Tending s (Nat.repeat (observe i) n s) := by
    intro n
    induction n with
    | zero => exact .refl
    | succ n ih => exact ih.trans (tending_observe i _)
  exact looked _

/-- A run in which the batch is looked at at any time, but not out of turn. -/
theorem underway_run {flights : List Flight} {first rest : List Arrival} {actions : List Action}
    (h : ∀ a ∈ actions, a.batch? = some i → a = .observe i) (hb : s.batches[i]? = some b)
    (hu : b.Underway flights first rest)
    (ha : Batch.Answers flights (first ++ rest ++ s.arrivals actions)) :
    ∃ b', (s.run actions).batches[i]? = some b' ∧
      b'.Underway flights first (rest ++ s.arrivals actions) := by
  induction actions generalizing s b rest with
  | nil => exact ⟨b, hb, by rwa [arrivals, List.append_nil]⟩
  | cons a actions ih =>
    obtain ⟨hlook, hlater⟩ := List.forall_mem_cons.mp h
    obtain ⟨b', hb', hu'⟩ : ∃ b', (s.act a).batches[i]? = some b' ∧
        b'.Underway flights first (rest ++ s.arrival a) := by
      by_cases hi : a.batch? = some i
      · obtain rfl := hlook hi
        have hnone : s.arrival (.observe i) = [] := rfl
        rw [hnone, List.append_nil]
        exact ⟨b.watch, getElem?_observe hb, hu.watch⟩
      · refine ⟨_, getElem?_act hi hb, hu.replies _ ?_⟩
        rw [arrivals, ← List.append_assoc] at ha
        exact ha.left
    have hstep := ih hlater hb' hu'
    rw [arrivals, ← List.append_assoc] at ha ⊢
    rw [← List.append_assoc first] at hstep
    exact hstep ha

section Done

variable {outcome : Except Failure Unit}

theorem batch_of_state (h : s.batchState? i = some (.done outcome)) :
    ∃ b, s.batches[i]? = some b ∧ b.state = .done outcome :=
  Option.map_eq_some_iff.mp h

theorem state_of_batch (hb : s.batches[i]? = some b) (h : b.state = .done outcome) :
    s.batchState? i = some (.done outcome) := by
  rw [batchState?, hb, Option.map_some, h]

theorem done_observe (h : s.batchState? i = some (.done outcome)) :
    (s.observe i).batchState? i = some (.done outcome) := by
  obtain ⟨b, hb, hdone⟩ := batch_of_state h
  exact state_of_batch (getElem?_observe hb) (Batch.done_watch hdone)

theorem done_observeUntilFailure (n : Nat) (h : s.batchState? i = some (.done outcome)) :
    (observeUntilFailure i n s).batchState? i = some (.done outcome) := by
  induction n generalizing s with
  | zero => exact h
  | succ n ih =>
    simp only [observeUntilFailure]
    split
    · exact h
    · exact ih (done_observe h)

theorem done_drop (h : s.batchState? i = some (.done outcome)) :
    (s.drop i).batchState? i = some (.done outcome) := by
  obtain ⟨b, hb, hdone⟩ := batch_of_state h
  have hpending : b.isPending = false := by simp [Batch.isPending, hdone]
  have hdrop : s.drop i = s := by simp [drop, hb, hpending]
  rwa [hdrop]

theorem done_settleAlone (h : (observeUntilFailure i (s.readyCount i) s).batchState? i =
    some (.done outcome)) : (s.settleAlone i).batchState? i = some (.done outcome) := by
  obtain ⟨b, hb, hdone⟩ := batch_of_state h
  simp only [settleAlone, hb]
  split
  · rename_i hfailed
    split
    · exact h
    · refine state_of_batch (b := b.forget) ?_ ?_
      · exact getElem?_set_of_some hb _
      · obtain ⟨first, hfirst⟩ := Option.isSome_iff_exists.mp hfailed
        rw [← hdone, b.state_of_failure hfirst, b.forget.state_of_failure hfirst]
        rfl
  · exact done_drop h

theorem done_act (a : Action) (h : s.batchState? i = some (.done outcome)) :
    (s.act a).batchState? i = some (.done outcome) := by
  by_cases hi : a.batch? = some i
  · cases a with
    | hire | accept | resolve | look | setClock | setFaults | setOptions => cases hi
    | advance j place =>
      obtain rfl : j = i := Option.some.inj hi
      obtain ⟨b, hb, hdone⟩ := batch_of_state h
      refine state_of_batch (b := b.advance place) ?_ (Batch.done_advance hdone place)
      simp only [act, advance, hb]
      exact getElem?_set_of_some hb _
    | observe j =>
      obtain rfl : j = i := Option.some.inj hi
      exact done_observe h
    | drop j =>
      obtain rfl : j = i := Option.some.inj hi
      exact done_drop h
    | settleAlone j =>
      obtain rfl : j = i := Option.some.inj hi
      exact done_settleAlone (done_observeUntilFailure _ h)
  · obtain ⟨b, hb, hdone⟩ := batch_of_state h
    exact state_of_batch (getElem?_act hi hb) (Batch.done_replies hdone _)

theorem done_run (actions : List Action) (h : s.batchState? i = some (.done outcome)) :
    (s.run actions).batchState? i = some (.done outcome) := by
  induction actions generalizing s with
  | nil => exact h
  | cons a rest ih => exact ih (done_act a h)

theorem repeat_succ {α : Type} (f : α → α) (n : Nat) (a : α) :
    Nat.repeat f (n + 1) a = Nat.repeat f n (f a) := by
  induction n with
  | zero => rfl
  | succ n ih => exact congrArg f ih

/-- Looking no further than to the first failure tells what becomes of a batch. -/
theorem done_of_repeat {n : Nat}
    (h : (Nat.repeat (observe i) n s).batchState? i = some (.done outcome)) :
    (observeUntilFailure i n s).batchState? i = some (.done outcome) := by
  induction n generalizing s with
  | zero => exact h
  | succ n ih =>
    simp only [observeUntilFailure]
    split
    · rename_i hfailed
      cases hb : s.batches[i]? with
      | none => simp [hasFailed, hb] at hfailed
      | some b =>
        obtain ⟨first, hfirst⟩ : ∃ first, b.failure = some first := by
          simpa [hasFailed, hb, Option.isSome_iff_exists] using hfailed
        have hstate := state_of_batch hb (b.state_of_failure hfirst)
        have later : ∀ m, (Nat.repeat (observe i) m s).batchState? i =
            some (.done (.error (.batch b.size first))) := by
          intro m
          induction m with
          | zero => exact hstate
          | succ m ih => exact done_observe ih
        rw [hstate, ← h, later]
    · rw [repeat_succ] at h
      exact ih h

theorem done_of_settle (h : (s.settle i).batchState? i = some (.done outcome)) :
    (s.settleAlone i).batchState? i = some (.done outcome) :=
  done_settleAlone (done_of_repeat h)

end Done

section Outcome

variable {worker : Nat} {marks : Marks} {spans : List Span}

theorem tending_frame (h : Tending s t) : t.store = s.store ∧ t.held = s.held := by
  obtain ⟨_, _, _, _, rfl⟩ := h.frame
  exact ⟨rfl, rfl⟩

theorem known_of_direct
    (h : ∀ st ∈ (s.started marks spans).filterMap Attempt.sent?, st.table ∉ s.gate) :
    ∀ f ∈ s.flights s.issued (s.started marks spans), f.isKnown := by
  intro f hf
  obtain ⟨k, a, ha, rfl⟩ := mem_flights hf
  apply Flight.isKnown_iff.mpr
  cases hsent : a.sent? with
  | none => exact .inl hsent
  | some st =>
    have hdirect := h st (List.mem_filterMap.mpr ⟨a, List.mem_of_getElem? ha, hsent⟩)
    exact .inr (by simp [flight, direct?, hsent, hdirect, Option.filter])

theorem accept_passes (h : s.workers[worker]? = some marks) (spans : List Span) :
    let sent := (s.started marks spans).filterMap Attempt.sent?
    (s.accept worker spans).store.log = s.store.log ++ sent.filter (·.table ∉ s.gate) ∧
      (s.accept worker spans).held.map (·.2) =
        s.held.map (·.2) ++ sent.filter (·.table ∈ s.gate) := by
  constructor
  · rw [accept_store h, Keyspace.tellAll_log, direct_statements]
  · rw [accept_held h, List.map_append, heldBack_statements]

theorem written_of_ok (h : s.workers[worker]? = some marks) (hs : s.Ticketed) {f : Flight}
    (hf : f ∈ s.flights s.issued (s.started marks spans)) {st : Statement}
    (hst : f.attempt.sent? = some st) {arrivals : List Arrival} {past : List Report}
    (harrived : ∀ n < (s.accept worker spans).issued, (n, .ok ()) ∈ arrivals →
      ∃ st w, (n, st) ∈ (s.accept worker spans).held ∧ st.write? = some w ∧ w ∈ written past)
    (hok : (f.after arrivals).outcome? = some (.ok ())) :
    ∃ w, st.write? = some w ∧ w ∈ written (s.reports (.accept worker spans) ++ past) := by
  obtain ⟨-, -, hreply⟩ := Flight.outcome?_eq_ok.mp hok
  obtain hsame | ⟨r, hr, hreply'⟩ := after_reply f arrivals
  · rw [hsame] at hreply
    obtain ⟨k, a, ha, rfl⟩ := mem_flights hf
    obtain ⟨st', hdirect, hexecuted⟩ := Option.map_eq_some_iff.mp hreply
    have hsent : a.sent? = some st' := (Option.filter_eq_some_iff.mp hdirect).1
    obtain rfl : st' = st := Option.some.inj (hsent.symm.trans hst)
    obtain ⟨w, hw⟩ := written_of_execute hexecuted
    refine ⟨w, hw, mem_written.mpr ⟨st', List.mem_append_left _ ?_, hw⟩⟩
    exact (answered_accept h).mpr
      ⟨List.mem_filterMap.mpr ⟨a, List.mem_of_getElem? ha, hdirect⟩, hexecuted⟩
  · obtain rfl : r = .ok () := Option.some.inj (hreply'.symm.trans hreply)
    have hlt : f.ticket < (s.accept worker spans).issued := by
      rw [accept_issued h]
      exact (ticket_of_flight hf).2
    obtain ⟨st', w, hheld, hw, hwritten⟩ := harrived _ hlt hr
    have hsent := (held_of_flight h hs hf hheld rfl).1
    obtain rfl : st' = st := Option.some.inj (hsent.symm.trans hst)
    refine ⟨w, hw, ?_⟩
    rw [written_append]
    exact List.mem_append_right _ hwritten

section Interrupted

variable {before later : List Action}

theorem ticketed_seen (hs : s.Ticketed) (before : List Action) (i : Nat) :
    ((s.run before).settle i).Ticketed := by
  have hlooked := tending_settle i (s.run before)
  have hrun := @Preserved.run s _ [] ticketed_preserved hs before
  obtain ⟨_, _, _, _, hframe⟩ := hlooked.frame
  exact hrun.frame (tending_frame hlooked).2 (by rw [hframe])

theorem spent_seen (hs : s.Ticketed) (before later : List Action) (i : Nat) :
    let seen := (s.run before).settle i
    Spent s (seen.run later) ((s.executions before ++ seen.executions later).map (·.1)) ∧
      Spent s (seen.run later) ((s.arrivals before ++ seen.arrivals later).map (·.1)) := by
  intro seen
  have hlooked := Spent.of_tending (tending_settle i (s.run before))
  obtain ⟨hexecuted, harrived⟩ := spent_run hs before
  obtain ⟨hexecuted', harrived'⟩ := spent_run (ticketed_seen hs before i) later
  rw [List.map_append, List.map_append]
  exact ⟨hexecuted.trans (hlooked.trans hexecuted'), harrived.trans (hlooked.trans harrived')⟩

theorem written_of_seen (hs : s.Ticketed) {n : Nat} (hn : n < s.issued)
    (h : (n, .ok ()) ∈ s.arrivals before ++ ((s.run before).settle i).arrivals later) :
    ∃ st w, (n, st) ∈ s.held ∧ st.write? = some w ∧
      w ∈ written (s.history before ++ ((s.run before).settle i).history later) := by
  rw [written_append]
  obtain h | h := List.mem_append.mp h
  · obtain ⟨st, w, hg, hw, hmem⟩ := written_of_arrival hs hn h
    exact ⟨st, w, hg, hw, List.mem_append_left _ hmem⟩
  · have hbefore := (spent_run hs before).2.trans (.of_tending (tending_settle i (s.run before)))
    obtain ⟨st, w, hg, hw, hmem⟩ :=
      written_of_arrival (ticketed_seen hs before i) (Nat.lt_of_lt_of_le hn hbefore.issued) h
    have hg : (n, st) ∈ s.held := (hbefore.held _ hg).resolve_right (Nat.not_le.mpr hn)
    exact ⟨st, w, hg, hw, List.mem_append_right _ hmem⟩

theorem payload?_seen (s : Service) (worker : Nat) (spans : List Span) (before later : List Action)
    (i : Nat) (table : Table) (key : List Cell) :
    let accepted := s.accept worker spans
    let seen := (accepted.run before).settle i
    let past := s.reports (.accept worker spans) ++ (accepted.history before ++ seen.history later)
    ((seen.run later).settle i).store.payload? table key =
      ((Write.lastUnder (written past) table key).map (·.payload)).or
        (s.store.payload? table key) := by
  intro accepted seen past
  have hrows := payload?_preserved s.store
  have hpast := @Preserved.act s _ [] hrows (.accept worker spans) fun _ _ => rfl
  have hpast := hrows.tending (tending_settle i (accepted.run before)) (hrows.run hpast before)
  have hpast := hrows.tending (tending_settle i (seen.run later)) (hrows.run hpast later) table key
  rwa [List.nil_append, List.append_assoc] at hpast

end Interrupted

/-- What a batch comes to that is first looked at after some actions, and at any time from then on.
It is told by the outcomes of its writes in the order in which they become known, and by the
outcomes alone whether it fails; nothing changes it any more once the batch is done. All statements
are passed on when the batch is accepted, no write is executed twice, and what succeeded stands
until it is written anew. -/
theorem batch_outcome (setup : Setup) (s₀ : Service) (earlier before later : List Action)
    (worker : Nat) (marks : Marks) (spans : List Span) (opened : setup.openService = .ok s₀)
    (hired : (s₀.run earlier).workers[worker]? = some marks)
    (unseen : ∀ a ∈ before, a.batch? ≠ some (s₀.run earlier).batches.length)
    (inTurn : ∀ a ∈ later, a.batch? = some (s₀.run earlier).batches.length →
      a = .observe (s₀.run earlier).batches.length) :
    let s := s₀.run earlier
    let i := s.batches.length
    let flights := s.flights s.issued (s.started marks spans)
    let sent := (s.started marks spans).filterMap Attempt.sent?
    let accepted := s.accept worker spans
    let seen := (accepted.run before).settle i
    let final := (seen.run later).settle i
    let first := accepted.arrivals before
    let rest := seen.arrivals later
    let executed := accepted.executions before ++ seen.executions later
    let past := s.reports (.accept worker spans) ++ (accepted.history before ++ seen.history later)
    final.batchState? i =
      some (Batch.verdict flights.length (Batch.outcomes flights first rest)) ∧
    ((∀ st ∈ sent, st.table ∉ s.gate) →
      Batch.outcomes flights first rest = flights.filterMap Flight.outcome?) ∧
    (final.batchState? i = some (.done (.ok ())) ↔
      ∀ f ∈ flights, (f.after (first ++ rest)).outcome? = some (.ok ())) ∧
    ((∃ failure, final.batchState? i = some (.done (.error failure))) ↔
      ∃ f ∈ flights, ∃ failure, (f.after (first ++ rest)).outcome? = some (.error failure)) ∧
    (∀ outcome, final.batchState? i = some (.done outcome) →
      (∀ more, (final.run more).batchState? i = some (.done outcome)) ∧
        ((seen.run later).settleAlone i).batchState? i = some (.done outcome)) ∧
    (accepted.store.log = s.store.log ++ sent.filter (·.table ∉ s.gate) ∧
      accepted.held.map (·.2) = s.held.map (·.2) ++ sent.filter (·.table ∈ s.gate)) ∧
    (final.store.log = accepted.store.log ++ executed.map (·.2) ∧ (executed.map (·.1)).Nodup ∧
      (∀ f ∈ flights, f.isKnown → f.ticket ∉ executed.map (·.1)) ∧
      (seen.store = (accepted.run before).store ∧ seen.held = (accepted.run before).held) ∧
      (final.store = (seen.run later).store ∧ final.held = (seen.run later).held)) ∧
    ∀ f ∈ flights, ∀ st, f.attempt.sent? = some st →
      (f.after (first ++ rest)).outcome? = some (.ok ()) →
      ∃ w last, st.write? = some w ∧ w ∈ written past ∧
        Write.lastUnder (written past) w.table w.key = some last ∧
        final.store.payload? w.table w.key = some last.payload := by
  intro s i flights sent accepted seen final first rest executed past
  have hs : s.Ticketed := ticketed_run opened earlier
  have haccepted : accepted.Ticketed := ticketed_accept hired hs
  obtain ⟨hstore, hheld⟩ := tending_frame (tending_settle i (accepted.run before))
  obtain ⟨hstore', hheld'⟩ := tending_frame (tending_settle i (seen.run later))
  obtain ⟨hspent, harrived⟩ := spent_seen haccepted before later i
  have hanswers : Batch.Answers flights (first ++ rest) := answers_accept hired hs harrived
  -- The batch has got the first replies when it is looked at, and the rest later.
  have hb : accepted.batches[i]? = some (.ofFlights worker flights) := batch_accept hired spans
  have hb' : seen.batches[i]? = some ((Batch.ofFlights worker flights).replies first).settled :=
    getElem?_settle (getElem?_run unseen hb)
  obtain ⟨b, hlast, hunderway⟩ := underway_run inTurn hb'
    (Batch.underway_settled worker flights first) (by rwa [List.append_nil])
  rw [List.nil_append] at hunderway
  have hstate : final.batchState? i =
      some (Batch.verdict flights.length (Batch.outcomes flights first rest)) := by
    rw [batchState?, getElem?_settle hlast, Option.map_some, hunderway.state hanswers]
  refine ⟨hstate, fun hdirect => Batch.outcomes_of_known hanswers (known_of_direct hdirect), ?_, ?_,
    ?_, accept_passes hired spans, ⟨?_, hspent.nodup, ?_, ⟨hstore, hheld⟩, hstore', hheld'⟩, ?_⟩
  · rw [hstate, Option.some.injEq]
    exact Batch.verdict_outcomes_ok hanswers
  · simp only [hstate, Option.some.injEq]
    exact Batch.verdict_outcomes_error hanswers
  · intro outcome hdone
    exact ⟨fun more => done_run more hdone, done_of_settle hdone⟩
  · rw [hstore', log_executions, hstore, log_executions, List.map_append, List.append_assoc]
  · intro f hf hknown hticket
    rw [Flight.isKnown, outcome_of_unspent hired hs hf hspent hticket] at hknown
    cases hknown
  · intro f hf st hst hok
    obtain ⟨w, hw, hmem⟩ :=
      written_of_ok hired hs hf hst (fun n hn => written_of_seen haccepted hn) hok
    obtain ⟨last, hlastUnder⟩ := Write.exists_lastUnder hmem
    refine ⟨w, last, hw, hmem, hlastUnder, ?_⟩
    have hfound : Write.lastUnder (written past) w.table w.key = some last := hlastUnder
    have hpayload : final.store.payload? w.table w.key =
        ((Write.lastUnder (written past) w.table w.key).map (·.payload)).or
          (s.store.payload? w.table w.key) := payload?_seen s worker spans before later i _ _
    rw [hpayload, hfound]
    rfl

theorem batch_outcome_web :
    let setup := { Setup.zipkin with gate := [.serviceNames] }
    let gated := { zipkin with gate := [.serviceNames] }
    let marks := Marks.fresh gated.settings.dedupMillis gated.clock
    let before : List Action := [.setFaults [.onTable .serviceNames (.timeout "slow")]]
    let later : List Action := [.resolve .released 1, .observe 0]
    let slow : Failure := .dispatch
      "INSERT INTO service_names (service_name) VALUES ('web') USING TTL 259200"
      "timed out: slow" true
    setup.openService = .ok gated ∧ (gated.run [.hire]).workers[0]? = some marks ∧
    (∀ a ∈ before, a.batch? ≠ some 0) ∧ (∀ a ∈ later, a.batch? = some 0 → a = .observe 0) ∧
    ((((((gated.run [.hire]).accept 0 [.of "web" "get"]).run before).settle 0).run later).settle
      0).batchState? 0 = some (.done (.error (.batch 3 slow))) := by
  intro setup gated marks before later slow
  have opened : setup.openService = .ok gated := by
    simp only [setup, gated, Setup.openService]
    rfl
  have hired : (gated.run [.hire]).workers[0]? = some marks := rfl
  have unseen : ∀ a ∈ before, a.batch? ≠ some 0 := by simp [before, Action.batch?]
  have inTurn : ∀ a ∈ later, a.batch? = some 0 → a = .observe 0 := by simp [later, Action.batch?]
  refine ⟨opened, hired, unseen, inTurn, ?_⟩
  apply (batch_outcome setup gated [.hire] before later 0 marks [.of "web" "get"] opened hired
    unseen inTurn).1.trans
  decide +kernel

end Outcome

end Service

end TraceIndex
