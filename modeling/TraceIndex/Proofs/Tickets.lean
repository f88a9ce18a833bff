import TraceIndex.Proofs.Lookups
import TraceIndex.Proofs.Outcomes

namespace TraceIndex

namespace Service

def arrival (s : Service) : Action → List Arrival
  | .resolve fate ticket =>
    (s.heldUnder? ticket).toList.map fun h => (h.1, s.replyTo h.2 fate)
  | _ => []

def arrivals (s : Service) : List Action → List Arrival
  | [] => []
  | a :: rest => s.arrival a ++ (s.act a).arrivals rest

def executed (s : Service) : Action → List (Nat × Statement)
  | .accept worker spans =>
    match s.workers[worker]? with
    | none => []
    | some marks =>
      (s.flights s.issued (s.started marks spans)).filterMap fun f =>
        (s.direct? f.attempt).map (f.ticket, ·)
  | .resolve .released ticket => (s.heldUnder? ticket).toList
  | _ => []

def executions (s : Service) : List Action → List (Nat × Statement)
  | [] => []
  | a :: rest => s.executed a ++ (s.act a).executions rest

variable {s t u : Service}

/-- Tickets that are used up on the way from one service to another. -/
structure Spent (s t : Service) (tickets : List Nat) : Prop where
  nodup : tickets.Nodup
  before : ∀ n ∈ tickets, n ∈ s.held.map (·.1) ∨ s.issued ≤ n
  after : ∀ n ∈ tickets, n ∉ t.held.map (·.1) ∧ n < t.issued
  held : ∀ g ∈ t.held, g ∈ s.held ∨ s.issued ≤ g.1
  issued : s.issued ≤ t.issued

namespace Spent

variable {tickets more : List Nat}

theorem ticket (h : Spent s t tickets) {n : Nat} (hn : n ∈ t.held.map (·.1)) :
    n ∈ s.held.map (·.1) ∨ s.issued ≤ n := by
  obtain ⟨g, hg, rfl⟩ := List.mem_map.mp hn
  exact (h.held g hg).imp_left fun hg => List.mem_map_of_mem hg

theorem trans (h : Spent s t tickets) (h' : Spent t u more) : Spent s u (tickets ++ more) where
  nodup := by
    refine List.nodup_append.mpr ⟨h.nodup, h'.nodup, fun n hn m hm heq => ?_⟩
    subst heq
    obtain ⟨hnot, hlt⟩ := h.after n hn
    exact (h'.before n hm).elim hnot (Nat.not_le.mpr hlt)
  before n hn := by
    obtain hn | hn := List.mem_append.mp hn
    · exact h.before n hn
    · exact (h'.before n hn).elim h.ticket (.inr ∘ Nat.le_trans h.issued)
  after n hn := by
    obtain hn | hn := List.mem_append.mp hn
    · obtain ⟨hnot, hlt⟩ := h.after n hn
      refine ⟨fun hmem => ?_, Nat.lt_of_lt_of_le hlt h'.issued⟩
      exact (h'.ticket hmem).elim hnot (Nat.not_le.mpr hlt)
    · exact h'.after n hn
  held g hg := (h'.held g hg).elim (h.held g) (.inr ∘ Nat.le_trans h.issued)
  issued := Nat.le_trans h.issued h'.issued

theorem sublist (h : Spent s t tickets) (hsub : more.Sublist tickets) : Spent s t more where
  nodup := h.nodup.sublist hsub
  before n hn := h.before n (hsub.subset hn)
  after n hn := h.after n (hsub.subset hn)
  held := h.held
  issued := h.issued

theorem of_frame (hheld : t.held = s.held) (hissued : t.issued = s.issued) : Spent s t [] where
  nodup := .nil
  before _ hn := absurd hn List.not_mem_nil
  after _ hn := absurd hn List.not_mem_nil
  held _ hg := .inl (hheld ▸ hg)
  issued := Nat.le_of_eq hissued.symm

theorem of_tending (h : Tending s t) : Spent s t [] := by
  obtain ⟨_, _, _, _, rfl⟩ := h.frame
  exact of_frame rfl rfl

end Spent

theorem flights_tickets (s : Service) (ticket : Nat) (as : List Attempt) :
    (s.flights ticket as).map (·.ticket) = List.range' ticket as.length := by
  induction as generalizing ticket with
  | nil => rfl
  | cons a as ih => rw [flights, List.map_cons, ih, List.length_cons, List.range'_succ]; rfl

theorem heldBack_le {g : Nat × Statement} {as : List Attempt} (h : g ∈ s.heldBack s.issued as) :
    s.issued ≤ g.1 := by
  obtain ⟨k, a, -, hk, -⟩ := mem_heldBack h
  exact hk ▸ Nat.le_add_right ..

section Accept

variable {worker : Nat} {marks : Marks} {spans : List Span} {f : Flight}

theorem ticket_of_flight (hf : f ∈ s.flights s.issued (s.started marks spans)) :
    s.issued ≤ f.ticket ∧ f.ticket < s.issued + (s.started marks spans).length := by
  have hmem : f.ticket ∈ (s.flights s.issued (s.started marks spans)).map (·.ticket) :=
    List.mem_map_of_mem hf
  rw [flights_tickets, List.mem_range'_1] at hmem
  exact hmem

theorem held_of_flight (h : s.workers[worker]? = some marks) (hs : s.Ticketed)
    (hf : f ∈ s.flights s.issued (s.started marks spans)) {g : Nat × Statement}
    (hg : g ∈ (s.accept worker spans).held) (hticket : g.1 = f.ticket) :
    f.attempt.sent? = some g.2 ∧ f.outcome? = none := by
  have hge := (ticket_of_flight hf).1
  rw [accept_held h] at hg
  obtain hg | hg := List.mem_append.mp hg
  · have hlt := hs.issued g hg
    omega
  · obtain ⟨k, a, ha, rfl⟩ := mem_flights hf
    obtain ⟨k', a', ha', hk', hsent, hgated⟩ := mem_heldBack hg
    have hk : s.issued + k' = s.issued + k := hk'.symm.trans hticket
    obtain rfl : k' = k := by omega
    obtain rfl : a' = a := Option.some.inj (ha'.symm.trans ha)
    refine ⟨hsent, ?_⟩
    simp [flight, Flight.outcome?, Attempt.sent?_eq_some.mp hsent, direct?, hsent, hgated,
      Option.filter]

theorem outcome_of_unspent (h : s.workers[worker]? = some marks) (hs : s.Ticketed)
    (hf : f ∈ s.flights s.issued (s.started marks spans)) {tickets : List Nat}
    (hspent : Spent (s.accept worker spans) t tickets) (hticket : f.ticket ∈ tickets) :
    f.outcome? = none := by
  obtain hheld | hge := hspent.before _ hticket
  · obtain ⟨g, hg, heq⟩ := List.mem_map.mp hheld
    exact (held_of_flight h hs hf hg heq).2
  · have hlt := (ticket_of_flight hf).2
    rw [accept_issued h] at hge
    omega

theorem answers_accept (h : s.workers[worker]? = some marks) (hs : s.Ticketed)
    {arrivals : List Arrival} (hspent : Spent (s.accept worker spans) t (arrivals.map (·.1))) :
    Batch.Answers (s.flights s.issued (s.started marks spans)) arrivals where
  distinct := by
    rw [flights_tickets]
    exact List.nodup_range'
  once := hspent.nodup
  unknown _ hf hticket := outcome_of_unspent h hs hf hspent hticket

theorem executed_sublist (s : Service) (flights : List Flight) :
    ((flights.filterMap fun f => (s.direct? f.attempt).map (f.ticket, ·)).map (·.1)).Sublist
      (flights.map (·.ticket)) := by
  induction flights with
  | nil => exact .slnil
  | cons f flights ih =>
    cases hd : s.direct? f.attempt with
    | none => simpa [hd] using ih.cons f.ticket
    | some st => simpa [hd] using ih

theorem executed_accept (h : s.workers[worker]? = some marks) (spans : List Span) :
    s.executed (.accept worker spans) =
      (s.flights s.issued (s.started marks spans)).filterMap fun f =>
        (s.direct? f.attempt).map (f.ticket, ·) := by
  simp only [executed, h]

theorem spent_accept (h : s.workers[worker]? = some marks) (hs : s.Ticketed) (spans : List Span) :
    Spent s (s.accept worker spans) ((s.executed (.accept worker spans)).map (·.1)) := by
  have hexecuted : ∀ n ∈ (s.executed (.accept worker spans)).map (·.1),
      ∃ f ∈ s.flights s.issued (s.started marks spans), f.ticket = n ∧ f.outcome?.isSome := by
    intro n hn
    rw [executed_accept h] at hn
    obtain ⟨g, hg, rfl⟩ := List.mem_map.mp hn
    obtain ⟨f, hf, hg⟩ := List.mem_filterMap.mp hg
    obtain ⟨st, hst, rfl⟩ := Option.map_eq_some_iff.mp hg
    refine ⟨f, hf, rfl, ?_⟩
    obtain ⟨k, a, -, rfl⟩ := mem_flights hf
    have hdirect : s.direct? a = some st := hst
    have hsent := Attempt.sent?_eq_some.mp (Option.filter_eq_some_iff.mp hdirect).1
    simp [flight, Flight.outcome?, hsent, hdirect]
  refine ⟨?_, ?_, ?_, ?_, ?_⟩
  · rw [executed_accept h]
    refine List.Nodup.sublist (executed_sublist s _) ?_
    rw [flights_tickets]
    exact List.nodup_range'
  · intro n hn
    obtain ⟨f, hf, rfl, -⟩ := hexecuted n hn
    exact .inr (ticket_of_flight hf).1
  · intro n hn
    obtain ⟨f, hf, rfl, hknown⟩ := hexecuted n hn
    rw [accept_issued h]
    refine ⟨fun hmem => ?_, (ticket_of_flight hf).2⟩
    obtain ⟨g, hg, heq⟩ := List.mem_map.mp hmem
    rw [(held_of_flight h hs hf hg heq).2] at hknown
    cases hknown
  · intro g hg
    rw [accept_held h, List.mem_append] at hg
    exact hg.imp_right heldBack_le
  · rw [accept_issued h]
    exact Nat.le_add_right ..

end Accept

theorem spent_resolve (hs : s.Ticketed) (fate : Fate) {h : Nat × Statement}
    (hh : s.heldUnder? h.1 = some h) : Spent s (s.resolveUnder fate h.1) [h.1] := by
  have hmem := (mem_held_of_heldUnder? hh).1
  rw [resolveUnder_of_some hh]
  refine ⟨List.nodup_singleton _, ?_, ?_, ?_, Nat.le_refl _⟩
  · intro n hn
    rw [List.mem_singleton.mp hn]
    exact .inl (List.mem_map_of_mem hmem)
  · intro n hn
    rw [List.mem_singleton.mp hn]
    refine ⟨fun hleft => ?_, hs.issued h hmem⟩
    obtain ⟨g, hg, heq⟩ := List.mem_map.mp hleft
    exact of_decide_eq_true (List.mem_filter.mp hg).2 heq
  · intro g hg
    exact .inl (List.mem_of_mem_filter hg)

/-- Each ticket is executed once at most, and so is each write answered. -/
theorem spent_act (hs : s.Ticketed) (a : Action) :
    Spent s (s.act a) ((s.executed a).map (·.1)) ∧
      Spent s (s.act a) ((s.arrival a).map (·.1)) := by
  cases a with
  | hire | look | setClock | setFaults | setOptions => exact ⟨.of_frame rfl rfl, .of_frame rfl rfl⟩
  | advance i place =>
    exact ⟨.of_tending (tending_advance s i place), .of_tending (tending_advance s i place)⟩
  | observe i => exact ⟨.of_tending (tending_observe i s), .of_tending (tending_observe i s)⟩
  | drop i => exact ⟨.of_tending (tending_drop s i), .of_tending (tending_drop s i)⟩
  | settleAlone i =>
    exact ⟨.of_tending (tending_settleAlone s i), .of_tending (tending_settleAlone s i)⟩
  | accept worker spans =>
    cases hw : s.workers[worker]? with
    | none =>
      simp only [act, accept_of_none hw, executed, hw, arrival]
      exact ⟨.of_frame rfl rfl, .of_frame rfl rfl⟩
    | some marks =>
      have hspent := spent_accept hw hs spans
      exact ⟨hspent, hspent.sublist (List.nil_sublist _)⟩
  | resolve fate ticket =>
    cases hh : s.heldUnder? ticket with
    | none =>
      have hnone : s.executed (.resolve fate ticket) = [] := by
        cases fate <;> simp [executed, hh]
      simp only [hnone, act, resolveUnder_of_none hh, arrival, hh]
      exact ⟨.of_frame rfl rfl, .of_frame rfl rfl⟩
    | some held =>
      obtain ⟨-, rfl⟩ := mem_held_of_heldUnder? hh
      have hspent := spent_resolve hs fate hh
      have harrival : (s.arrival (.resolve fate held.1)).map (·.1) = [held.1] := by
        simp only [arrival, hh]
        rfl
      refine ⟨?_, harrival ▸ hspent⟩
      cases fate with
      | released =>
        have hexecuted : s.executed (.resolve .released held.1) = [held] := by
          simp only [executed, hh]
          rfl
        rwa [hexecuted]
      | abandoned => exact hspent.sublist (List.nil_sublist _)

theorem spent_run (hs : s.Ticketed) (actions : List Action) :
    Spent s (s.run actions) ((s.executions actions).map (·.1)) ∧
      Spent s (s.run actions) ((s.arrivals actions).map (·.1)) := by
  induction actions generalizing s with
  | nil => exact ⟨.of_frame rfl rfl, .of_frame rfl rfl⟩
  | cons a rest ih =>
    obtain ⟨hexecuted, harrived⟩ := spent_act hs a
    obtain ⟨hexecuted', harrived'⟩ := ih (@Preserved.act s _ [] ticketed_preserved a hs)
    rw [executions, arrivals, List.map_append, List.map_append]
    exact ⟨hexecuted.trans hexecuted', harrived.trans harrived'⟩

theorem log_executed (s : Service) (a : Action) :
    (s.act a).store.log = s.store.log ++ (s.executed a).map (·.2) := by
  have tended : Tending s (s.act a) → (s.executed a).map (·.2) = [] →
      (s.act a).store.log = s.store.log ++ (s.executed a).map (·.2) := by
    intro h hnone
    obtain ⟨_, _, _, _, hframe⟩ := h.frame
    rw [hframe, hnone, List.append_nil]
  cases a with
  | hire | look | setClock | setFaults | setOptions => exact (List.append_nil _).symm
  | advance i place => exact tended (tending_advance s i place) rfl
  | observe i => exact tended (tending_observe i s) rfl
  | drop i => exact tended (tending_drop s i) rfl
  | settleAlone i => exact tended (tending_settleAlone s i) rfl
  | accept worker spans =>
    cases hw : s.workers[worker]? with
    | none =>
      simp only [act, accept_of_none hw, executed, hw]
      exact (List.append_nil _).symm
    | some marks =>
      have hdirect : ((s.flights s.issued (s.started marks spans)).filterMap fun f =>
          (s.direct? f.attempt).map (f.ticket, ·)).map (·.2) =
            (s.started marks spans).filterMap s.direct? := by
        have hattempts := congrArg (List.filterMap s.direct?)
          (s.flights_attempts s.issued (s.started marks spans))
        rw [List.filterMap_map] at hattempts
        rw [List.map_filterMap, ← hattempts]
        apply List.filterMap_congr
        intro f _
        cases hd : s.direct? f.attempt <;> simp [hd]
      rw [act, accept_store hw, Keyspace.tellAll_log, executed_accept hw, hdirect]
  | resolve fate ticket =>
    cases hh : s.heldUnder? ticket with
    | none =>
      have hnone : s.executed (.resolve fate ticket) = [] := by
        cases fate <;> simp [executed, hh]
      rw [act, resolveUnder_of_none hh, hnone]
      exact (List.append_nil _).symm
    | some held =>
      rw [act, resolveUnder_of_some hh]
      cases fate with
      | released =>
        simp only [executed, hh, storeAfter, Keyspace.tell_log]
        rfl
      | abandoned => exact (List.append_nil _).symm

theorem log_executions (s : Service) (actions : List Action) :
    (s.run actions).store.log = s.store.log ++ (s.executions actions).map (·.2) := by
  induction actions generalizing s with
  | nil => exact (List.append_nil _).symm
  | cons a rest ih =>
    rw [run_cons, ih, log_executed, executions, List.map_append, List.append_assoc]

theorem after_reply (f : Flight) (arrivals : List Arrival) :
    (f.after arrivals).reply = f.reply ∨
      ∃ r, (f.ticket, r) ∈ arrivals ∧ (f.after arrivals).reply = some r := by
  induction arrivals generalizing f with
  | nil => exact .inl rfl
  | cons a arrivals ih =>
    have hticket := (Batch.answer_attempt a.1 a.2 f).2
    obtain hsame | ⟨r, hr, hreply⟩ := ih (Batch.answer a.1 a.2 f)
    · by_cases heq : f.ticket = a.1
      · refine .inr ⟨a.2, by simp [heq], hsame.trans ?_⟩
        simp [Batch.answer, heq]
      · exact .inl (hsame.trans (by simp [Batch.answer, heq]))
    · rw [hticket] at hr
      exact .inr ⟨r, List.mem_cons_of_mem _ hr, hreply⟩

theorem written_of_execute {st : Statement} {k : Keyspace} (h : (k.execute st).1 = .ok ()) :
    ∃ w, st.write? = some w := by
  obtain ⟨row, hrow⟩ := Keyspace.applies_iff.mp (Keyspace.applies_iff_ok.mpr h)
  exact ⟨_, Keyspace.write?_of_rowOf hrow⟩

theorem written_of_arrival (hs : s.Ticketed) {actions : List Action} {n : Nat} (hn : n < s.issued)
    (h : (n, .ok ()) ∈ s.arrivals actions) :
    ∃ st w, (n, st) ∈ s.held ∧ st.write? = some w ∧ w ∈ written (s.history actions) := by
  induction actions generalizing s with
  | nil => cases h
  | cons a rest ih =>
    rw [history, written_append]
    obtain h | h := List.mem_append.mp h
    · cases a with
      | resolve fate ticket =>
        obtain ⟨held, hheld, heq⟩ := List.mem_map.mp h
        have hh : s.heldUnder? ticket = some held := Option.mem_toList.mp hheld
        obtain ⟨hmem, rfl⟩ := mem_held_of_heldUnder? hh
        obtain ⟨rfl, hreply⟩ := Prod.mk.inj heq
        have hreleased : (s.store.execute held.2).1 = .ok () := by
          cases fate with
          | released => exact hreply
          | abandoned => cases hreply
        obtain ⟨w, hw⟩ := written_of_execute hreleased
        refine ⟨held.2, w, hmem, hw, List.mem_append_left _ (mem_written.mpr ⟨held.2, ?_, hw⟩)⟩
        rw [reports_resolve hh, hreply]
        exact List.mem_singleton_self _
      | _ => cases h
    · have hspent := (spent_act hs a).2
      obtain ⟨st, w, hheld, hw, hwritten⟩ :=
        ih (@Preserved.act s _ [] ticketed_preserved a hs) (Nat.lt_of_lt_of_le hn hspent.issued) h
      have hheld : (n, st) ∈ s.held := (hspent.held _ hheld).resolve_right (Nat.not_le.mpr hn)
      exact ⟨st, w, hheld, hw, List.mem_append_right _ hwritten⟩

end Service

end TraceIndex
