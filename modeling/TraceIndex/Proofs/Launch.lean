import TraceIndex.Ingest.Service
import TraceIndex.Proofs.Desk
import TraceIndex.Proofs.Keyspace

namespace TraceIndex

def Attempt.sent? (a : Attempt) : Option Statement := a.statement.toOption

theorem Attempt.sent?_eq_some {a : Attempt} {st : Statement} :
    a.sent? = some st ↔ a.statement = .ok st :=
  toOption_eq_some

namespace Service

def heldBack? (s : Service) (ticket : Nat) (a : Attempt) : Option (Nat × Statement) :=
  (a.sent?.filter (·.table ∈ s.gate)).map fun st => (ticket, st)

def direct? (s : Service) (a : Attempt) : Option Statement := a.sent?.filter (·.table ∉ s.gate)

def flight (s : Service) (ticket : Nat) (a : Attempt) : Flight :=
  ⟨ticket, a, (s.direct? a).map fun st => (s.store.execute st).1⟩

theorem launch_eq (s : Service) (a : Attempt) :
    s.launch a = (s.flight s.issued a, { s with
      metrics := countAttempt s.metrics a
      store := s.store.tellAll (s.direct? a).toList
      held := s.held ++ (s.heldBack? s.issued a).toList
      issued := s.issued + 1 }) := by
  cases hs : a.statement with
  | error failure =>
    simp [launch, hs, flight, direct?, heldBack?, Attempt.sent?, Except.toOption]
  | ok st =>
    by_cases hg : st.table ∈ s.gate <;>
      simp [launch, send, hs, hg, flight, direct?, heldBack?, Attempt.sent?, Except.toOption,
        Keyspace.tell, Option.filter]

def flights (s : Service) : Nat → List Attempt → List Flight
  | _, [] => []
  | ticket, a :: rest => s.flight ticket a :: flights s (ticket + 1) rest

def heldBack (s : Service) : Nat → List Attempt → List (Nat × Statement)
  | _, [] => []
  | ticket, a :: rest => (s.heldBack? ticket a).toList ++ heldBack s (ticket + 1) rest

section Congr

variable {s t : Service}

theorem flights_congr (hg : s.gate = t.gate) (ho : s.store.options = t.store.options)
    (hf : s.store.faults = t.store.faults) (ticket : Nat) (as : List Attempt) :
    s.flights ticket as = t.flights ticket as := by
  induction as generalizing ticket with
  | nil => rfl
  | cons a as ih =>
    have hflight : s.flight ticket a = t.flight ticket a := by
      simp only [flight, direct?, hg, Keyspace.reply_congr ho hf]
    rw [flights, flights, ih, hflight]

theorem heldBack_congr (hg : s.gate = t.gate) (ticket : Nat) (as : List Attempt) :
    s.heldBack ticket as = t.heldBack ticket as := by
  induction as generalizing ticket with
  | nil => rfl
  | cons a as ih => rw [heldBack, heldBack, ih, heldBack?, heldBack?, hg]

end Congr

theorem launchAll_cons (a : Attempt) (as : List Attempt) (s : Service) :
    launchAll (a :: as) s =
      ((s.launch a).1 :: (launchAll as (s.launch a).2).1, (launchAll as (s.launch a).2).2) := rfl

theorem launchAll_eq (as : List Attempt) (s : Service) :
    launchAll as s = (s.flights s.issued as, { s with
      metrics := as.foldl countAttempt s.metrics
      store := s.store.tellAll (as.filterMap s.direct?)
      held := s.held ++ s.heldBack s.issued as
      issued := s.issued + as.length }) := by
  induction as generalizing s with
  | nil => simp [launchAll, flights, heldBack]
  | cons a as ih =>
    let t : Service := { s with
      metrics := countAttempt s.metrics a
      store := s.store.tellAll (s.direct? a).toList
      held := s.held ++ (s.heldBack? s.issued a).toList
      issued := s.issued + 1 }
    have hgate : t.gate = s.gate := rfl
    have hoptions : t.store.options = s.store.options := Keyspace.tellAll_options
    have hfaults : t.store.faults = s.store.faults := Keyspace.tellAll_faults
    have hflights := flights_congr hgate hoptions hfaults (s.issued + 1) as
    have hheld := heldBack_congr hgate (s.issued + 1) as
    have hdirect : t.direct? = s.direct? := rfl
    have hlen : s.issued + 1 + as.length = s.issued + (a :: as).length := by
      simp only [List.length_cons]
      omega
    have htell : t.store.tellAll (as.filterMap s.direct?) =
        s.store.tellAll ((a :: as).filterMap s.direct?) := by
      cases h : s.direct? a <;> simp [t, h]
    have hrest := ih t
    simp only [hdirect, htell] at hrest
    rw [launchAll_cons, launch_eq]
    change (s.flight s.issued a :: (launchAll as t).1, (launchAll as t).2) = _
    rw [hrest]
    simp only [t, hflights, hheld, hlen, flights, heldBack, List.foldl_cons, List.append_assoc]

theorem flights_attempts (s : Service) (ticket : Nat) (as : List Attempt) :
    (s.flights ticket as).map (·.attempt) = as := by
  induction as generalizing ticket with
  | nil => rfl
  | cons a as ih => rw [flights, List.map_cons, ih, flight]

theorem mem_flights {s : Service} {ticket : Nat} {as : List Attempt} {f : Flight}
    (h : f ∈ s.flights ticket as) :
    ∃ (i : Nat) (a : Attempt), as[i]? = some a ∧ f = s.flight (ticket + i) a := by
  induction as generalizing ticket with
  | nil => simp [flights] at h
  | cons a as ih =>
    obtain rfl | h := List.mem_cons.mp h
    · exact ⟨0, a, rfl, rfl⟩
    · obtain ⟨i, a', ha', rfl⟩ := ih h
      exact ⟨i + 1, a', ha', by rw [Nat.add_assoc, Nat.add_comm 1]⟩

theorem mem_heldBack {s : Service} {ticket : Nat} {as : List Attempt} {h : Nat × Statement}
    (hh : h ∈ s.heldBack ticket as) :
    ∃ (i : Nat) (a : Attempt), as[i]? = some a ∧ h.1 = ticket + i ∧ a.sent? = some h.2 ∧
      h.2.table ∈ s.gate := by
  induction as generalizing ticket with
  | nil => simp [heldBack] at hh
  | cons a as ih =>
    obtain hh | hh := List.mem_append.mp hh
    · simp only [heldBack?, Option.mem_toList, Option.map_eq_some_iff,
        Option.filter_eq_some_iff] at hh
      obtain ⟨st, ⟨hst, hg⟩, rfl⟩ := hh
      exact ⟨0, a, rfl, rfl, hst, of_decide_eq_true hg⟩
    · obtain ⟨i, a', ha', hticket, hst⟩ := ih hh
      exact ⟨i + 1, a', ha', by rw [hticket, Nat.add_assoc, Nat.add_comm 1], hst⟩

theorem heldBack_of_gated {s : Service} {ticket i : Nat} {as : List Attempt} {a : Attempt}
    (ha : as[i]? = some a) {st : Statement} (hst : a.sent? = some st) (hg : st.table ∈ s.gate) :
    (ticket + i, st) ∈ s.heldBack ticket as := by
  induction as generalizing ticket i with
  | nil => cases ha
  | cons a' as ih =>
    rw [heldBack]
    cases i with
    | zero =>
      obtain rfl : a' = a := Option.some.inj ha
      apply List.mem_append_left
      simp [heldBack?, hst, hg, Option.filter]
    | succ i =>
      apply List.mem_append_right
      rw [Nat.add_comm i, ← Nat.add_assoc]
      exact ih ha

theorem heldBack_tickets (s : Service) (ticket : Nat) (as : List Attempt) :
    ((s.heldBack ticket as).map (·.1)).Pairwise (· < ·) := by
  induction as generalizing ticket with
  | nil => exact .nil
  | cons a as ih =>
    have hlater : ∀ n ∈ (s.heldBack (ticket + 1) as).map (·.1), ticket < n := fun n hn => by
      obtain ⟨h, hh, rfl⟩ := List.mem_map.mp hn
      obtain ⟨i, -, -, hi, -⟩ := mem_heldBack hh
      omega
    cases h : a.sent?.filter (·.table ∈ s.gate) with
    | none => simpa [heldBack, heldBack?, h] using ih (ticket + 1)
    | some st =>
      simp only [heldBack, heldBack?, h, Option.map_some, Option.toList_some, List.singleton_append,
        List.map_cons]
      exact .cons hlater (ih (ticket + 1))

theorem heldBack_statements (s : Service) (ticket : Nat) (as : List Attempt) :
    (s.heldBack ticket as).map (·.2) =
      (as.filterMap Attempt.sent?).filter (·.table ∈ s.gate) := by
  induction as generalizing ticket with
  | nil => rfl
  | cons a as ih =>
    rw [heldBack, List.map_append, ih]
    cases h : a.sent? with
    | none => simp [heldBack?, h]
    | some st => by_cases hg : st.table ∈ s.gate <;> simp [heldBack?, h, hg, Option.filter]

theorem direct_statements (s : Service) (as : List Attempt) :
    as.filterMap s.direct? = (as.filterMap Attempt.sent?).filter (·.table ∉ s.gate) := by
  induction as with
  | nil => rfl
  | cons a as ih =>
    cases h : a.sent? with
    | none => simp [direct?, h, ih]
    | some st => by_cases hg : st.table ∈ s.gate <;> simp [direct?, h, hg, ih, Option.filter]

def entriesOf (spans : List Span) : List Entry := (spans.map Span.normalize).flatMap Span.entries

def walk (s : Service) (marks : Marks) (spans : List Span) : List (Option Attempt) × Desk :=
  Desk.attempts s.writer s.clock (entriesOf spans) ⟨marks, s.buckets⟩

/-- The attempts that a worker with these marks makes for spans. -/
def started (s : Service) (marks : Marks) (spans : List Span) : List Attempt :=
  (s.walk marks spans).1.filterMap id

def readied (s : Service) (worker : Nat) (marks : Marks) (spans : List Span) : Service :=
  { s with
    buckets := (s.walk marks spans).2.buckets
    hasWarned := s.hasWarned || !(s.warnings (spans.map Span.normalize)).isEmpty
    metrics := { s.metrics with
      spansAccepted := s.metrics.spansAccepted + spans.length
      dimensionWritesSkipped :=
        s.metrics.dimensionWritesSkipped + (s.walk marks spans).1.countP Option.isNone }
    notices := s.notices ++ s.warnings (spans.map Span.normalize)
    workers := s.workers.set worker (s.walk marks spans).2.marks }

/-- All that accepting spans changes. -/
theorem accept_eq {s : Service} {worker : Nat} {marks : Marks} (h : s.workers[worker]? = some marks)
    (spans : List Span) :
    s.accept worker spans = { s.readied worker marks spans with
      store := s.store.tellAll ((s.started marks spans).filterMap s.direct?)
      held := s.held ++ s.heldBack s.issued (s.started marks spans)
      issued := s.issued + (s.started marks spans).length
      metrics :=
        (s.started marks spans).foldl countAttempt (s.readied worker marks spans).metrics
      batches :=
        s.batches ++ [.ofFlights worker (s.flights s.issued (s.started marks spans))] } := by
  let t := s.readied worker marks spans
  have hlaunch : s.accept worker spans =
      { (launchAll (s.started marks spans) t).2 with
        batches := (launchAll (s.started marks spans) t).2.batches ++
          [.ofFlights worker (launchAll (s.started marks spans) t).1] } := by
    simp only [accept, h, List.length_map]
    rfl
  have hgate : t.gate = s.gate := rfl
  have hoptions : t.store.options = s.store.options := rfl
  have hfaults : t.store.faults = s.store.faults := rfl
  have hdirect : t.direct? = s.direct? := rfl
  rw [hlaunch, launchAll_eq, flights_congr hgate hoptions hfaults, heldBack_congr hgate, hdirect]
  rfl

section Accept

variable {s : Service} {worker : Nat} {marks : Marks}

theorem accept_held (h : s.workers[worker]? = some marks) (spans : List Span) :
    (s.accept worker spans).held = s.held ++ s.heldBack s.issued (s.started marks spans) := by
  rw [accept_eq h]

theorem accept_issued (h : s.workers[worker]? = some marks) (spans : List Span) :
    (s.accept worker spans).issued = s.issued + (s.started marks spans).length := by
  rw [accept_eq h]

theorem accept_batches (h : s.workers[worker]? = some marks) (spans : List Span) :
    (s.accept worker spans).batches =
      s.batches ++ [.ofFlights worker (s.flights s.issued (s.started marks spans))] := by
  rw [accept_eq h]

theorem batch_accept (h : s.workers[worker]? = some marks) (spans : List Span) :
    (s.accept worker spans).batches[s.batches.length]? =
      some (.ofFlights worker (s.flights s.issued (s.started marks spans))) := by
  rw [accept_batches h]
  exact List.getElem?_concat_length

theorem accept_store (h : s.workers[worker]? = some marks) (spans : List Span) :
    (s.accept worker spans).store =
      s.store.tellAll ((s.started marks spans).filterMap s.direct?) := by
  rw [accept_eq h]

end Accept

theorem accept_of_none {s : Service} {worker : Nat} (h : s.workers[worker]? = none)
    (spans : List Span) : s.accept worker spans = s := by
  simp only [accept, h]

end Service

end TraceIndex
