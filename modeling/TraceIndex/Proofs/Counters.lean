import Mathlib.Algebra.GroupWithZero.Nat
import TraceIndex.Proofs.Retryable

namespace TraceIndex

namespace Span

/-- How many entries each service of a span has: its name, the name of the span under it, and where
the span is found by it. -/
def serviceCount (s : Span) : Nat :=
  1 + s.isNamed.toNat +
    s.timestamp.isSome.toNat *
      (1 + s.isNamed.toNat + s.duration.isSome.toNat * (1 + s.isNamed.toNat))

def entryCount (s : Span) : Nat :=
  1 + (s.services.map fun _ => s.serviceCount).sum +
    s.timestamp.isSome.toNat * s.annotationKeys.length

theorem length_serviceEntries (s : Span) (service : String) :
    (s.serviceEntries service).length = s.serviceCount := by
  cases hn : s.isNamed <;> cases ht : s.timestamp <;> cases hd : s.duration <;>
    simp [serviceEntries, indexEntries, serviceCount, hn, ht, hd]

theorem length_keyEntries (s : Span) :
    s.keyEntries.length = s.timestamp.isSome.toNat * s.annotationKeys.length := by
  cases ht : s.timestamp <;> simp [keyEntries, ht]

theorem length_entries (s : Span) : s.entries.length = s.entryCount := by
  simp only [entries, List.length_append, List.length_singleton, List.length_flatMap,
    length_serviceEntries, length_keyEntries, entryCount]

end Span

namespace Service

variable {s : Service} {worker : Nat} {marks : Marks} {spans : List Span}

theorem length_entriesOf (spans : List Span) :
    (entriesOf spans).length = (spans.map (·.normalize.entryCount)).sum := by
  simp only [entriesOf, List.length_flatMap, List.map_map, Span.length_entries]
  rfl

theorem foldl_countAttempt (as : List Attempt) (m : Metrics) :
    as.foldl countAttempt m = { m with
      writesDispatched := m.writesDispatched + (as.filterMap Attempt.sent?).length
      writesRejected := m.writesRejected + (as.filterMap Attempt.rejection?).length } := by
  induction as generalizing m with
  | nil => rfl
  | cons a as ih =>
    rw [List.foldl_cons, ih]
    cases h : a.statement with
    | ok st =>
      have hsent : a.sent? = some st := Attempt.sent?_eq_some.mpr h
      have hrejected : a.rejection? = none := by rw [Attempt.rejection?, h]
      simp only [countAttempt, h, List.filterMap_cons_some hsent,
        List.filterMap_cons_none hrejected, List.length_cons, Nat.add_assoc, Nat.add_comm 1]
    | error failure =>
      have hsent : a.sent? = none := by rw [Attempt.sent?, h]; rfl
      have hrejected : a.rejection? = some failure := Attempt.rejection?_eq_some.mpr h
      simp only [countAttempt, h, List.filterMap_cons_none hsent,
        List.filterMap_cons_some hrejected, List.length_cons, Nat.add_assoc, Nat.add_comm 1]

theorem length_attempts (as : List Attempt) :
    (as.filterMap Attempt.sent?).length + (as.filterMap Attempt.rejection?).length =
      as.length := by
  have hrejected : ∀ a : Attempt, a.rejection?.isSome = decide ¬ a.sent?.isSome := fun a => by
    cases h : a.statement <;> simp [Attempt.rejection?, Attempt.sent?, Except.toOption, h]
  simp only [List.length_filterMap_eq_countP, hrejected]
  exact (List.length_eq_countP_add_countP fun a : Attempt => a.sent?.isSome).symm

theorem metrics_accept (h : s.workers[worker]? = some marks) (spans : List Span) :
    (s.accept worker spans).metrics = { s.metrics with
      spansAccepted := s.metrics.spansAccepted + spans.length
      writesDispatched :=
        s.metrics.writesDispatched + (s.dispatched (.accept worker spans)).length
      writesRejected :=
        s.metrics.writesRejected + ((entriesOf spans).filterMap s.writer.rejection?).length
      dimensionWritesSkipped :=
        s.metrics.dimensionWritesSkipped + (s.walk marks spans).1.countP Option.isNone } := by
  rw [dispatched_accept h, ← started_rejections s marks, accept_eq h]
  exact foldl_countAttempt _ _

/-- Every entry is sent, rejected or skipped. -/
theorem length_walk (h : s.workers[worker]? = some marks) (spans : List Span) :
    (s.dispatched (.accept worker spans)).length +
      ((entriesOf spans).filterMap s.writer.rejection?).length +
      (s.walk marks spans).1.countP Option.isNone = (entriesOf spans).length := by
  have hskipped : (Option.isNone : Option Attempt → Bool) = fun a => decide ¬ a.isSome := by
    funext a
    cases a <;> rfl
  rw [dispatched_accept h, ← started_rejections s marks, length_attempts, started,
    List.length_filterMap_eq_countP, hskipped]
  exact (List.length_eq_countP_add_countP Option.isSome).symm.trans (Desk.length_attempts ..)

theorem size_stable (n : Nat) : Batch.Stable fun b => b.size = n where
  reply _ _ _ h := h
  watch b h := by
    obtain ⟨-, hwatch⟩ | ⟨f, rest, outcome, -, -, -, hwatch⟩ := b.watch_cases
    · rw [hwatch]
      exact h
    · rw [hwatch]
      exact h
  advance _ _ h := h
  drop _ h := h
  forget _ _ h := h

/-- A batch that fails tells how many writes were sent for it and how many rejected, together. It
tells how many were sent if and only if nothing of its spans is rejected. -/
theorem size_of_failed (s : Service) (worker : Nat) (marks : Marks) (spans : List Span)
    (later : List Action) (size : Nat) (first : Failure)
    (hired : s.workers[worker]? = some marks)
    (failed : ((s.accept worker spans).run later).batchState? s.batches.length =
      some (.done (.error (.batch size first)))) :
    let sent := s.dispatched (.accept worker spans)
    let rejected := (entriesOf spans).filterMap s.writer.rejection?
    (s.accept worker spans).metrics.writesDispatched =
        s.metrics.writesDispatched + sent.length ∧
    (s.accept worker spans).metrics.writesRejected =
        s.metrics.writesRejected + rejected.length ∧
    size = sent.length + rejected.length ∧
    (size = sent.length ↔ ∀ span ∈ spans, span.normalize.Writable s.writer) := by
  intro sent rejected
  have hsize : size = sent.length + rejected.length := by
    obtain ⟨b, hb, hstable⟩ := (size_stable _).run later (batch_accept hired spans) rfl
    rw [batchState?, hb, Option.map_some, Option.some.injEq] at failed
    obtain ⟨other, -, heq⟩ := Batch.failure_of_state failed
    have hattempts := congrArg List.length
      (s.flights_attempts s.issued (s.started marks spans))
    rw [List.length_map, ← length_attempts, started_rejections, ← dispatched_accept hired]
      at hattempts
    exact (Failure.batch.inj heq).1.trans (hstable.trans hattempts)
  refine ⟨by rw [metrics_accept hired], by rw [metrics_accept hired], hsize, ?_⟩
  rw [← s.writer.rejection?_entriesOf, hsize, ← List.length_eq_zero_iff]
  change sent.length + rejected.length = sent.length ↔ rejected.length = 0
  omega

def overlong : Span := { Span.of "web" "" with timestamp := some 5 }

theorem size_of_failed_overlong :
    let s := terse.run [.hire]
    ((s.accept 0 [overlong]).run (List.replicate 5 (.observe 0))).batchState? 0 =
      some (.done (.error (.batch 5 (.valueTooLarge 13 8)))) ∧
    5 = (s.dispatched (.accept 0 [overlong])).length +
      ((entriesOf [overlong]).filterMap terse.writer.rejection?).length ∧
    ¬ overlong.normalize.Writable terse.writer := by
  intro s
  have failed : ((s.accept 0 [overlong]).run (List.replicate 5 (.observe 0))).batchState? 0 =
      some (.done (.error (.batch 5 (.valueTooLarge 13 8)))) := by
    decide +kernel
  have told := size_of_failed s 0 (.fresh terse.settings.dedupMillis terse.clock) [overlong] _ 5 _
    rfl failed
  have fewer : 5 ≠ (s.dispatched (.accept 0 [overlong])).length := by decide +kernel
  refine ⟨failed, told.2.2.1, fun writable => fewer (told.2.2.2.mpr fun span hspan => ?_)⟩
  rwa [List.mem_singleton.mp hspan]

/-- The batch tells of five writes, and four were sent. -/
theorem size_counts_rejected :
    let s := terse.run [.hire]
    ((s.accept 0 [overlong]).run (List.replicate 5 (.observe 0))).batchState? 0 =
      some (.done (.error (.batch 5 (.valueTooLarge 13 8)))) ∧
    (s.accept 0 [overlong]).metrics.writesDispatched = s.metrics.writesDispatched + 4 ∧
    (s.dispatched (.accept 0 [overlong])).length = 4 := by
  decide +kernel

end Service

end TraceIndex
