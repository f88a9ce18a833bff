import TraceIndex.Proofs.Touches

namespace TraceIndex

def Attempt.rejection? (a : Attempt) : Option Failure :=
  match a.statement with
  | .error failure => some failure
  | .ok _ => none

theorem Attempt.rejection?_eq_some {a : Attempt} {failure : Failure} :
    a.rejection? = some failure ↔ a.statement = .error failure := by
  cases h : a.statement <;> simp [rejection?, h]

theorem filterMap_due {α β : Type} {key? : α → Option String} {g : α → Option β} {l : List α}
    (h : ∀ a ∈ l, (key? a).isSome → g a = none) (taken : List String) :
    (due key? taken l).filterMap g = l.filterMap g := by
  have hplain : ∀ l' : List α, (∀ a ∈ l', a ∈ l) →
      l'.filterMap g = (l'.filter fun a => (key? a).isNone).filterMap g := by
    intro l' hsub
    rw [List.filterMap_filter]
    apply List.filterMap_congr
    intro a ha
    cases hkey : key? a with
    | none => rfl
    | some key => exact h a (hsub a ha) (by rw [hkey]; rfl)
  rw [hplain _ fun _ => mem_of_mem_due, due_filter_none, ← hplain l fun _ => id]

namespace Writer

variable {w : Writer} {e : Entry} {failure : Failure}

def rejection? (w : Writer) (e : Entry) : Option Failure :=
  match w.cells e with
  | .error failure => some failure
  | .ok _ => none

theorem rejection?_statement (w : Writer) (e : Entry) (drawn : RandomBuckets) (mark : Option String) :
    Attempt.rejection? ⟨(w.statement e drawn).1, mark⟩ = w.rejection? e := by
  cases hc : w.cells e with
  | error failure => simp only [Attempt.rejection?, rejection?, statement_of_error hc, hc]
  | ok cells =>
    cases hspread : isSpread e with
    | false => simp only [Attempt.rejection?, rejection?, statement_fixed hc hspread, hc]
    | true => simp only [Attempt.rejection?, rejection?, statement_drawn hc hspread, hc]

/-- An entry with a mark is not rejected, so that no mark hides a rejection. -/
theorem rejection?_of_mark (h : e.Filled) (hmark : e.mark?.isSome) (drawn : RandomBuckets) :
    w.rejection? e = none := by
  obtain ⟨key, hkey⟩ := Option.isSome_iff_exists.mp hmark
  obtain ⟨st, hst, -⟩ := w.statement_of_mark h hkey drawn
  rw [← w.rejection?_statement e drawn none, hst, Attempt.rejection?]

theorem drafts_rejections (w : Writer) (l : List Entry) (drawn : RandomBuckets) :
    (Desk.drafts w l drawn).1.filterMap Attempt.rejection? = l.filterMap w.rejection? := by
  induction l generalizing drawn with
  | nil => rfl
  | cons e l ih =>
    rw [Desk.drafts_cons, List.filterMap_cons, List.filterMap_cons, w.rejection?_statement, ih]

end Writer

namespace Flight

variable {f : Flight} {failure : Failure}

theorem outcome?_of_rejected (h : f.attempt.rejection? = some failure) :
    f.outcome? = some (.error failure) := by
  simp only [outcome?, Attempt.rejection?_eq_some.mp h]

theorem rejected_of_outcome (h : f.outcome? = some (.error failure))
    (hinput : failure.isInputError) : f.attempt.rejection? = some failure := by
  cases hs : f.attempt.statement with
  | error first =>
    simp only [outcome?, hs] at h
    obtain rfl := Except.error.inj (Option.some.inj h)
    exact Attempt.rejection?_eq_some.mpr hs
  | ok st =>
    simp only [outcome?, hs] at h
    obtain ⟨r, -, hr⟩ := Option.map_eq_some_iff.mp h
    cases r with
    | ok => cases hr
    | error stored =>
      obtain rfl := Except.error.inj hr
      cases hinput

end Flight

namespace Batch

variable {b : Batch}

theorem failure_watch {first : Failure} (h : b.watch.failure = some first) :
    b.failure = some first ∨ ∃ f ∈ b.outstanding, f.outcome? = some (.error first) := by
  obtain ⟨-, hwatch⟩ | ⟨f, rest, outcome, hready, houtcome, -, hwatch⟩ := b.watch_cases
  · rw [hwatch] at h
    exact .inl h
  · have hor : (b.failure <|> failureIn? outcome) = some first := by rwa [hwatch] at h
    cases hold : b.failure with
    | some other =>
      rw [hold] at hor
      exact .inl hor
    | none =>
      rw [hold] at hor
      have hf : f ∈ b.scan.outstanding := by
        rw [outstanding, hready]
        exact List.mem_append_left _ List.mem_cons_self
      cases outcome with
      | ok => cases hor
      | error failure =>
        obtain rfl : failure = first := Option.some.inj hor
        exact .inr ⟨f, (mem_scan f).mp hf, houtcome⟩

/-- What is outstanding of a batch stems from some attempts, and so does a failure for what was handed
in. -/
structure Stems (attempts : List Attempt) (b : Batch) : Prop where
  outstanding : ∀ f ∈ b.outstanding, f.attempt ∈ attempts
  failure : ∀ first, b.failure = some first → first.isInputError →
    first ∈ attempts.filterMap Attempt.rejection?

theorem stems_stable (attempts : List Attempt) : Stable (Stems attempts) where
  reply b ticket r h := by
    refine ⟨fun f hf => ?_, h.failure⟩
    obtain ⟨g, hg, rfl⟩ := (mem_reply ticket r f).mp hf
    rw [(answer_attempt ticket r g).1]
    exact h.outstanding g hg
  watch b h := by
    obtain ⟨keys, htended⟩ := b.tended_watch
    refine ⟨fun f hf => h.outstanding f (htended.outstanding f hf), fun first hfirst hinput => ?_⟩
    obtain hold | ⟨f, hf, houtcome⟩ := failure_watch hfirst
    · exact h.failure first hold hinput
    · exact List.mem_filterMap.mpr
        ⟨f.attempt, h.outstanding f hf, Flight.rejected_of_outcome houtcome hinput⟩
  advance b place h := ⟨fun f hf => h.outstanding f ((mem_advance place f).mp hf), h.failure⟩
  drop _ h := ⟨fun _ hf => absurd hf List.not_mem_nil, h.failure⟩
  forget _ _ h := ⟨fun _ hf => absurd hf List.not_mem_nil, h.failure⟩

/-- A batch with a write that was rejected: the write is still to be looked at, or the batch is
spoilt. -/
def Refused (b : Batch) : Prop := b.Spoilt ∨ ∃ f ∈ b.outstanding, f.attempt.rejection?.isSome

theorem Refused.tended {b b' : Batch} {keys : List String} (h : b.Refused)
    (ht : b.Tended b' keys) : b'.Refused := by
  obtain hspoilt | ⟨f, hf, hrejected⟩ := h
  · exact .inl (ht.spoilt hspoilt)
  · obtain ⟨failure, hfailure⟩ := Option.isSome_iff_exists.mp hrejected
    obtain hleft | hok | ⟨hspoilt, -⟩ := ht.seen f hf
    · exact .inr ⟨f, hleft, hrejected⟩
    · rw [Flight.outcome?_of_rejected hfailure] at hok
      cases hok
    · exact .inl hspoilt

theorem refused_stable : Stable Refused where
  reply b ticket r h := by
    obtain hspoilt | ⟨f, hf, hrejected⟩ := h
    · exact .inl hspoilt
    · refine .inr ⟨_, (mem_reply ticket r _).mpr ⟨f, hf, rfl⟩, ?_⟩
      rwa [(answer_attempt ticket r f).1]
  watch b h := by
    obtain ⟨keys, htended⟩ := b.tended_watch
    exact h.tended htended
  advance b place h := h.tended (.of_mem rfl (mem_advance place) id)
  drop _ _ := .inl (.inr rfl)
  forget _ hfailed _ := .inl (.inl hfailed)

theorem Refused.not_ok (h : b.Refused) : b.state ≠ .done (.ok ()) := by
  intro hok
  obtain ⟨hsound, hnone⟩ := of_state_ok hok
  obtain hspoilt | ⟨f, hf, -⟩ := h
  · exact hsound hspoilt
  · rw [hnone] at hf
    cases hf

end Batch

namespace Service

variable {s t : Service} {worker : Nat} {marks : Marks} {spans : List Span}

theorem writer_preserved (w : Writer) : Preserved fun _ s => s.writer = w where
  hire _ _ hs := hs
  accept _ s worker marks spans h hs := by
    rw [accept_eq h]
    exact hs
  tends _ _ t h hs := by
    obtain ⟨_, _, _, _, _, _, -, -, rfl⟩ := h
    exact hs
  resolve _ _ fate _ hh hs := by
    rw [resolveUnder_of_some hh]
    exact hs
  look _ _ _ hs := hs
  set _ _ _ _ _ hs := hs

theorem writer_run (s : Service) (actions : List Action) : (s.run actions).writer = s.writer :=
  @Preserved.run s _ [] (writer_preserved s.writer) rfl actions

theorem started_rejections (s : Service) (marks : Marks) (spans : List Span) :
    (s.started marks spans).filterMap Attempt.rejection? =
      (entriesOf spans).filterMap s.writer.rejection? := by
  rw [started, walk, (Desk.attempts_eq _ _ _ _).1, Writer.drafts_rejections]
  apply filterMap_due
  exact fun e he hmark => Writer.rejection?_of_mark (filled_of_mem_entriesOf he) hmark s.buckets

theorem flights_rejections (s : Service) (marks : Marks) (spans : List Span) :
    (s.flights s.issued (s.started marks spans)).filterMap (·.attempt.rejection?) =
      (entriesOf spans).filterMap s.writer.rejection? := by
  rw [← started_rejections]
  conv_rhs => rw [← s.flights_attempts s.issued (s.started marks spans), List.filterMap_map]
  rfl

theorem stems_accept (s : Service) (worker : Nat) (marks : Marks) (spans : List Span) :
    Batch.Stems (s.started marks spans)
      (.ofFlights worker (s.flights s.issued (s.started marks spans))) := by
  refine ⟨fun f hf => ?_, fun first hfirst => nomatch hfirst⟩
  rw [← s.flights_attempts s.issued (s.started marks spans)]
  exact List.mem_map_of_mem (by simpa [Batch.outstanding, Batch.ofFlights] using hf)

theorem rejected_of_input (h : s.workers[worker]? = some marks) {actions : List Action}
    {failure : Failure}
    (hfailed : ((s.accept worker spans).run actions).batchState? s.batches.length =
      some (.done (.error failure)))
    (hinput : failure.isInputError) :
    ∃ size first, failure = .batch size first ∧
      first ∈ (entriesOf spans).filterMap s.writer.rejection? := by
  obtain ⟨b, hb, hstems⟩ :=
    (Batch.stems_stable _).run actions (batch_accept h spans) (s.stems_accept worker marks spans)
  rw [batchState?, hb, Option.map_some, Option.some.injEq] at hfailed
  obtain ⟨first, hfirst, rfl⟩ := Batch.failure_of_state hfailed
  refine ⟨b.size, first, rfl, ?_⟩
  rw [← started_rejections s marks]
  exact hstems.failure first hfirst hinput

theorem not_ok_of_rejected (h : s.workers[worker]? = some marks)
    (hrejected : (entriesOf spans).filterMap s.writer.rejection? ≠ []) (later : List Action) :
    ((s.accept worker spans).run later).batchState? s.batches.length ≠ some (.done (.ok ())) := by
  obtain ⟨first, hfirst⟩ := List.exists_mem_of_ne_nil _ hrejected
  rw [← flights_rejections s marks, List.mem_filterMap] at hfirst
  obtain ⟨f, hf, hf'⟩ := hfirst
  have hrefused : (Batch.ofFlights worker (s.flights s.issued (s.started marks spans))).Refused :=
    .inr ⟨f, List.mem_append_left _ hf, by rw [hf']; rfl⟩
  obtain ⟨b, hb, hrefused⟩ := Batch.refused_stable.run later (batch_accept h spans) hrefused
  rw [batchState?, hb, Option.map_some, Ne, Option.some.injEq]
  exact hrefused.not_ok

theorem held_of_execution (hs : s.Ticketed) {actions : List Action} {g : Nat × Statement}
    (hg : g ∈ s.executions actions) (hlt : g.1 < s.issued) : g ∈ s.held := by
  induction actions generalizing s with
  | nil => cases hg
  | cons a rest ih =>
    have hspent := (spent_act hs a).1
    obtain hnow | hlater := List.mem_append.mp hg
    · cases a with
      | resolve fate ticket =>
        cases fate with
        | released => exact (mem_held_of_heldUnder? (Option.mem_toList.mp hnow)).1
        | abandoned => cases hnow
      | accept worker spans =>
        cases h : s.workers[worker]? with
        | none => simp [executed, h] at hnow
        | some marks =>
          rw [executed_accept h] at hnow
          obtain ⟨f, hf, hsent⟩ := List.mem_filterMap.mp hnow
          obtain ⟨st, -, rfl⟩ := Option.map_eq_some_iff.mp hsent
          exact absurd hlt (Nat.not_lt.mpr (ticket_of_flight hf).1)
      | _ => cases hnow
    · have hheld := ih (@Preserved.act s _ [] ticketed_preserved a hs) hlater
        (Nat.lt_of_lt_of_le hlt hspent.issued)
      exact (hspent.held g hheld).resolve_right (Nat.not_le.mpr hlt)

/-- All that is ever executed for a write is the statement that its attempt made. -/
theorem sent_of_execution (h : s.workers[worker]? = some marks) (hs : s.Ticketed) {f : Flight}
    (hf : f ∈ s.flights s.issued (s.started marks spans)) {st : Statement} {later : List Action}
    (hst : (f.ticket, st) ∈ s.executions (.accept worker spans :: later)) :
    f.attempt.sent? = some st := by
  obtain hnow | hlater := List.mem_append.mp hst
  · rw [executed_accept h] at hnow
    obtain ⟨g, hg, hsent⟩ := List.mem_filterMap.mp hnow
    obtain ⟨st', hdirect, heq⟩ := Option.map_eq_some_iff.mp hsent
    obtain ⟨hticket, rfl⟩ := Prod.mk.inj heq
    have hnodup : ((s.flights s.issued (s.started marks spans)).map (·.ticket)).Nodup := by
      rw [flights_tickets]
      exact List.nodup_range'
    obtain rfl := List.inj_on_of_nodup_map hnodup hg hf hticket
    exact (Option.filter_eq_some_iff.mp hdirect).1
  · have hlt : f.ticket < (s.accept worker spans).issued := by
      rw [accept_issued h]
      exact (ticket_of_flight hf).2
    have hheld := held_of_execution (ticketed_accept h hs) hlater hlt
    exact (held_of_flight h hs hf hheld rfl).1

def terse : Service :=
  { zipkin with
    settings := { zipkin.settings with keyLimit := 8 }
    writer := { zipkin.writer with keyLimit := 8 } }

theorem terse_opened :
    { Setup.zipkin with settings := { keyLimit := 8 } }.openService = .ok terse := by
  rfl

/-- Spans that failed once for what they are fail whenever a worker of the same writer accepts them,
whatever its marks, the time, the buckets and the store then are: the same of their entries are
rejected for the same reasons, and all that is executed for their writes are statements of entries
that are not rejected. -/
theorem refused_ever_after (s t : Service) (worker worker' : Nat) (marks marks' : Marks)
    (spans : List Span) (actions : List Action) (failure : Failure)
    (hired : s.workers[worker]? = some marks)
    (refused : ((s.accept worker spans).run actions).batchState? s.batches.length =
      some (.done (.error failure)))
    (input : failure.isInputError) (same : t.writer = s.writer)
    (hired' : t.workers[worker']? = some marks') (ticketed : t.Ticketed) :
    let rejected := (entriesOf spans).filterMap s.writer.rejection?
    let flights := t.flights t.issued (t.started marks' spans)
    (∃ size first, failure = .batch size first ∧ first ∈ rejected) ∧
    flights.filterMap (·.attempt.rejection?) = rejected ∧
    ∀ later : List Action,
      (∀ outcome,
        ((t.accept worker' spans).run later).batchState? t.batches.length = some (.done outcome) →
        ∃ failure', outcome = .error failure') ∧
      ∀ f ∈ flights, ∀ st, (f.ticket, st) ∈ t.executions (.accept worker' spans :: later) →
        f.attempt.rejection? = none ∧
        ∃ e ∈ entriesOf spans, s.writer.rejection? e = none ∧
          ∃ drawn, (s.writer.statement e drawn).1 = .ok st := by
  intro rejected flights
  obtain ⟨size, first, hfailure, hfirst⟩ := rejected_of_input hired refused input
  have hagain : flights.filterMap (·.attempt.rejection?) = rejected := by
    rw [flights_rejections, same]
  refine ⟨⟨size, first, hfailure, hfirst⟩, hagain, fun later => ⟨fun outcome hdone => ?_, ?_⟩⟩
  · have hrejected : (entriesOf spans).filterMap t.writer.rejection? ≠ [] := by
      rw [same]
      exact List.ne_nil_of_mem hfirst
    cases outcome with
    | ok => exact absurd hdone (not_ok_of_rejected hired' hrejected later)
    | error failure' => exact ⟨failure', rfl⟩
  · intro f hf st hst
    have hsent := Attempt.sent?_eq_some.mp (sent_of_execution hired' ticketed hf hst)
    have hnone : f.attempt.rejection? = none := by rw [Attempt.rejection?, hsent]
    obtain ⟨k, a, ha, rfl⟩ := mem_flights hf
    obtain ⟨e, he, drawn, rfl⟩ := mem_started (List.mem_of_getElem? ha)
    refine ⟨hnone, e, he, ?_, drawn, ?_⟩
    · rw [← same, ← t.writer.rejection?_statement e drawn e.mark?]
      exact hnone
    · rw [← same]
      exact hsent

theorem refused_ever_after_web :
    let span : Span := { Span.of "web" "" with timestamp := some 5 }
    let s := terse.run [.hire]
    let t := s.run [.accept 0 [span], .setFaults [.onTable .traces (.timeout "slow")]]
    ((s.accept 0 [span]).run (List.replicate 5 (.observe 0))).batchState? 0 =
      some (.done (.error (.batch 5 (.valueTooLarge 13 8)))) ∧
    ∀ later outcome, ((t.accept 0 [span]).run later).batchState? 1 = some (.done outcome) →
      ∃ failure, outcome = .error failure := by
  intro span s t
  let marks := Marks.fresh terse.settings.dedupMillis terse.clock
  have hired : s.workers[0]? = some marks := rfl
  have refused : ((s.accept 0 [span]).run (List.replicate 5 (.observe 0))).batchState? 0 =
      some (.done (.error (.batch 5 (.valueTooLarge 13 8)))) := by
    decide +kernel
  have same : t.writer = s.writer := writer_run s _
  have hired' : t.workers[0]? = some (s.walk marks [span]).2.marks := marks_accept hired [span]
  have ticketed : t.Ticketed :=
    @Preserved.run s _ [] ticketed_preserved (ticketed_run terse_opened [.hire]) _
  have count : t.batches.length = 1 := by decide +kernel
  have again := (refused_ever_after s t 0 0 marks _ [span] (List.replicate 5 (.observe 0)) _ hired
    refused rfl same hired' ticketed).2.2
  rw [count] at again
  exact ⟨refused, fun later => (again later).1⟩

end Service

end TraceIndex
