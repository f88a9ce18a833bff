import TraceIndex.Proofs.Counters
import TraceIndex.Proofs.Draining

namespace TraceIndex

def Report.fault? : Report → Option (Statement × StoreFailure)
  | .answered st (.error failure) => some (st, failure)
  | .answered _ (.ok ()) | .accepted _ => none

def faultsOf (past : List Report) : List (Statement × StoreFailure) := past.filterMap Report.fault?

theorem faultsOf_append (past more : List Report) :
    faultsOf (past ++ more) = faultsOf past ++ faultsOf more :=
  List.filterMap_append

def Notice.failure? : Notice → Option (Statement × StoreFailure)
  | .writeFailed st failure => some (st, failure)
  | .unreplicated _ | .untimedSpan .. | .undrained _ => none

def Metrics.onAccept (m : Metrics) : Metrics := { m with batchesFailed := 0, writesFailed := 0 }

theorem perm_move_last {α : Type} (as bs cs ds : List α) :
    (as ++ (bs ++ cs) ++ ds).Perm (as ++ bs ++ ds ++ cs) := by
  simp only [List.append_assoc]
  exact (List.perm_append_comm.append_left bs).append_left as

namespace Batch

variable {b : Batch}

theorem watch_perm (b : Batch) : (b.sight ++ b.watch.outstanding).Perm b.outstanding := by
  obtain ⟨hsight, hwatch⟩ | ⟨f, rest, outcome, hready, -, hsight, hwatch⟩ := b.watch_cases
  · rw [hsight, hwatch]
    exact b.scan_perm
  · have hscan := b.scan_perm
    rw [Batch.outstanding, hready] at hscan
    rw [hsight, hwatch]
    exact hscan

theorem known_of_sight {f : Flight} (hf : f ∈ b.sight) : f.isKnown := by
  obtain ⟨hsight, -⟩ | ⟨g, rest, outcome, -, houtcome, hsight, -⟩ := b.watch_cases
  · rw [hsight] at hf
    cases hf
  · rw [hsight] at hf
    obtain rfl := List.mem_singleton.mp hf
    rw [Flight.isKnown, houtcome]
    rfl

theorem failures_answered {flights : List Flight} {st : Statement} {r : Except StoreFailure Unit}
    {f : Flight} (hf : f ∈ flights) (hdistinct : (flights.map (·.ticket)).Nodup)
    (hst : f.attempt.statement = .ok st) (hnone : f.reply = none) :
    ((flights.map (answer f.ticket r)).filterMap Flight.storeFailure?).Perm
      (flights.filterMap Flight.storeFailure? ++ faultsOf [.answered st r]) := by
  obtain ⟨before, after, rfl⟩ := List.append_of_mem hf
  rw [List.map_append, List.map_cons, List.nodup_middle, List.nodup_cons, List.mem_append,
    not_or] at hdistinct
  obtain ⟨⟨hbefore, hafter⟩, -⟩ := hdistinct
  have hold : f.storeFailure? = none := by simp [Flight.storeFailure?, hst, hnone]
  have hnew : (answer f.ticket r f).storeFailure? = Report.fault? (.answered st r) := by
    simp only [answer, Flight.storeFailure?, hst, ↓reduceIte]
    rcases r with failure | ⟨⟩ <;> rfl
  rw [List.map_append, List.map_cons,
    map_answer_of_ne fun g hg heq => hbefore (List.mem_map.mpr ⟨g, hg, heq⟩),
    map_answer_of_ne fun g hg heq => hafter (List.mem_map.mpr ⟨g, hg, heq⟩), List.filterMap_append,
    List.filterMap_append, List.filterMap_cons_none hold, List.filterMap_cons, hnew, faultsOf]
  cases hr : Report.fault? (.answered st r) with
  | none => simp [hr]
  | some fault =>
    rw [List.filterMap_cons_some hr, List.filterMap_nil]
    exact List.perm_middle.trans (List.perm_append_singleton ..).symm

theorem abandoned_stable :
    Stable fun b => b.isDropped ∧ b.failure = none ∧ b.outstanding = [] where
  reply b ticket r h := ⟨h.1, h.2.1, empty_stable.reply b ticket r h.2.2⟩
  watch b h := by
    obtain ⟨-, hwatch⟩ | ⟨f, rest, outcome, hready, -⟩ := b.watch_cases
    · rw [hwatch]
      exact ⟨h.1, h.2.1, List.perm_nil.mp (h.2.2 ▸ b.scan_perm)⟩
    · have hscan : b.scan.outstanding = [] := List.perm_nil.mp (h.2.2 ▸ b.scan_perm)
      rw [outstanding, hready] at hscan
      cases hscan
  advance b place h := ⟨h.1, h.2.1, empty_stable.advance b place h.2.2⟩
  drop _ h := ⟨rfl, h.2.1, rfl⟩
  forget _ hfailed h := by
    rw [h.2.1] at hfailed
    cases hfailed

end Batch

namespace Service

def failuresTold (s : Service) : List (Statement × StoreFailure) :=
  s.notices.filterMap Notice.failure?

def outstanding (s : Service) : List Flight := s.batches.flatMap Batch.outstanding

def unseen (s : Service) : List (Statement × StoreFailure) :=
  s.outstanding.filterMap Flight.storeFailure?

variable {s t u : Service} {i : Nat} {b b' : Batch} {seen lost : List Flight}

theorem outstanding_set (hb : s.batches[i]? = some b)
    (h : (seen ++ b'.outstanding).Perm b.outstanding) :
    (seen ++ (s.setBatch i b').outstanding).Perm s.outstanding := by
  obtain ⟨hlt, rfl⟩ := List.getElem?_eq_some_iff.mp hb
  obtain ⟨before, after, hold, -, hnew⟩ : ∃ before after,
      s.batches = before ++ s.batches[i] :: after ∧ before.length = i ∧
        s.batches.set i b' = before ++ b' :: after :=
    List.exists_of_set hlt
  have hleft : (s.setBatch i b').outstanding = before.flatMap Batch.outstanding ++
      (b'.outstanding ++ after.flatMap Batch.outstanding) := by
    rw [outstanding, setBatch, hnew, List.flatMap_append, List.flatMap_cons]
  have hright : s.outstanding = before.flatMap Batch.outstanding ++
      (s.batches[i].outstanding ++ after.flatMap Batch.outstanding) := by
    rw [outstanding, ← List.flatMap_cons, ← List.flatMap_append, ← hold]
  rw [hleft, hright]
  refine (List.perm_append_comm_assoc ..).trans (List.Perm.append_left _ ?_)
  rw [← List.append_assoc]
  exact h.append_right _

/-- Looking at batches and giving them up: writes are seen and their failures told, or they are
lost. -/
structure Learns (s t : Service) (seen lost : List Flight) : Prop where
  split : (seen ++ lost ++ t.outstanding).Perm s.outstanding
  known : ∀ f ∈ seen, f.isKnown
  told : t.failuresTold = s.failuresTold ++ seen.filterMap Flight.storeFailure?
  counted : t.metrics.writesFailed =
    s.metrics.writesFailed + (seen.filterMap Flight.storeFailure?).length
  onAccept : t.metrics.onAccept = s.metrics.onAccept
  held : t.held = s.held
  issued : t.issued = s.issued

theorem Learns.of_frame (hbatches : t.batches = s.batches) (hnotices : t.notices = s.notices)
    (hmetrics : t.metrics = s.metrics) (hheld : t.held = s.held) (hissued : t.issued = s.issued) :
    s.Learns t [] [] where
  split := .of_eq (congrArg (List.flatMap Batch.outstanding) hbatches)
  known _ hf := absurd hf List.not_mem_nil
  told := by rw [failuresTold, hnotices, List.filterMap_nil, List.append_nil]; rfl
  counted := congrArg Metrics.writesFailed hmetrics
  onAccept := congrArg Metrics.onAccept hmetrics
  held := hheld
  issued := hissued

theorem Learns.refl (s : Service) : s.Learns s [] [] := .of_frame rfl rfl rfl rfl rfl

theorem Learns.trans {seen' lost' : List Flight} (h : s.Learns t seen lost)
    (h' : t.Learns u seen' lost') : s.Learns u (seen ++ seen') (lost ++ lost') where
  split := by
    have hfirst := h.split
    have hlater := h'.split.append_left (seen ++ lost)
    have hmove := (List.perm_append_comm_assoc seen' lost (lost' ++ u.outstanding)).append_left seen
    simp only [List.append_assoc] at hfirst hlater hmove ⊢
    exact hmove.trans (hlater.trans hfirst)
  known f hf := (List.mem_append.mp hf).elim (h.known f) (h'.known f)
  told := by rw [h'.told, h.told, List.append_assoc, List.filterMap_append]
  counted := by
    rw [h'.counted, h.counted, List.filterMap_append, List.length_append, Nat.add_assoc]
  onAccept := h'.onAccept.trans h.onAccept
  held := h'.held.trans h.held
  issued := h'.issued.trans h.issued

theorem learns_advance (s : Service) (i place : Nat) : s.Learns (s.advance i place) [] [] := by
  simp only [advance]
  split
  · exact .refl s
  · rename_i b hb
    exact { Learns.refl s with split := outstanding_set hb (b.advance_perm place) }

theorem failuresTold_observe (hb : s.batches[i]? = some b) :
    (s.observe i).failuresTold =
      s.failuresTold ++ b.sight.filterMap Flight.storeFailure? := by
  cases hlook : b.scan.look? with
  | none =>
    have hsight : b.sight = [] := by rw [Batch.sight, hlook]; rfl
    simp [observe, hb, hlook, setBatch, hsight, failuresTold]
  | some look =>
    obtain ⟨f, outcome, after⟩ := look
    have hsight : b.sight = [f] := by rw [Batch.sight, hlook]; rfl
    have hnotices : (s.observe i).notices = (s.learn f).notices := by
      obtain ⟨metrics, hcount⟩ :=
        ((s.learn f).settleMark b.worker f outcome).countBatch_eq b.scan after
      simp only [observe, hb, hlook]
      change (((s.learn f).settleMark b.worker f outcome).countBatch b.scan after).notices = _
      rw [hcount, settleMark_eq]
      rfl
    rw [failuresTold, hnotices, hsight]
    cases hf : f.storeFailure? <;> simp [learn, hf, notify, failuresTold, Notice.failure?]

theorem learns_observe (i : Nat) (s : Service) : ∃ seen, s.Learns (s.observe i) seen [] := by
  cases hb : s.batches[i]? with
  | none =>
    simp only [observe, hb]
    exact ⟨[], .refl s⟩
  | some b =>
    obtain ⟨_, _, _, _, hframe⟩ := (tending_observe i s).frame
    refine ⟨b.sight, ?_, fun f => Batch.known_of_sight, failuresTold_observe hb, ?_, ?_, ?_, ?_⟩
    · have hset : (s.observe i).outstanding = (s.setBatch i b.watch).outstanding := by
        rw [outstanding, observe_eq hb]
        rfl
      rw [List.append_nil, hset]
      exact outstanding_set hb b.watch_perm
    · rw [metrics_observe hb, List.length_filterMap_eq_countP]
    · rw [metrics_observe hb]
      rfl
    · rw [hframe]
    · rw [hframe]

theorem learns_observeUntilFailure (i n : Nat) (s : Service) :
    ∃ seen, s.Learns (observeUntilFailure i n s) seen [] := by
  induction n generalizing s with
  | zero => exact ⟨[], .refl s⟩
  | succ n ih =>
    simp only [observeUntilFailure]
    split
    · exact ⟨[], .refl s⟩
    · obtain ⟨seen, hfirst⟩ := learns_observe i s
      obtain ⟨others, hrest⟩ := ih (s.observe i)
      exact ⟨seen ++ others, hfirst.trans hrest⟩

theorem learns_forget (hb : s.batches[i]? = some b) (b' : Batch) :
    s.Learns (s.forget i b') [] b.outstanding :=
  { Learns.refl s with
    split := outstanding_set hb (by
      have hforget : b'.forget.outstanding = [] := rfl
      rw [hforget, List.append_nil, List.nil_append]) }

theorem learns_notify (s : Service) (outstanding : Nat) :
    s.Learns (s.notify [.undrained outstanding]) [] [] :=
  { Learns.refl s with told := by simp [failuresTold, notify, Notice.failure?] }

theorem learns_drop (s : Service) (i : Nat) :
    ∃ lost, s.Learns (s.drop i) [] lost ∧
      ((∀ b, s.batches[i]? = some b → ¬ b.isPending) → lost = []) := by
  simp only [drop]
  split
  · exact ⟨[], .refl s, fun _ => rfl⟩
  · rename_i b hb
    split
    · rename_i hpending
      exact ⟨_, learns_forget hb _, fun h => absurd hpending (h b hb)⟩
    · exact ⟨[], .refl s, fun _ => rfl⟩

theorem learns_settleAlone (s : Service) (i : Nat) :
    ∃ seen lost, s.Learns (s.settleAlone i) seen lost := by
  obtain ⟨seen, hlook⟩ := learns_observeUntilFailure i (s.readyCount i) s
  simp only [settleAlone]
  split
  · exact ⟨seen, [], hlook⟩
  · rename_i b hb
    split
    · split
      · exact ⟨seen, [], hlook⟩
      · let told := (observeUntilFailure i (s.readyCount i) s).notify
          [.undrained b.outstanding.length]
        have htold : told.batches[i]? = some b := hb
        exact ⟨_, _, (hlook.trans (learns_notify _ _)).trans (learns_forget htold b)⟩
    · obtain ⟨lost, hdrop, -⟩ := learns_drop (observeUntilFailure i (s.readyCount i) s) i
      exact ⟨_, _, hlook.trans hdrop⟩

/-- Each write that may still be seen has its own ticket, and no reply as long as its statement is
held back. -/
structure Tracked (s : Service) : Prop where
  ticketed : s.Ticketed
  distinct : (s.outstanding.map (·.ticket)).Nodup
  issued : ∀ f ∈ s.outstanding, f.ticket < s.issued
  unanswered : ∀ f ∈ s.outstanding, ∀ h ∈ s.held, h.1 = f.ticket →
    f.attempt.statement = .ok h.2 ∧ f.reply = none

/-- What holds of a service after every run, given what was told of it and which failures were lost:
each failure of the store was told and counted, is still to be seen, or was lost. -/
structure Ledger (past : List Report) (s : Service) (lost : List (Statement × StoreFailure)) :
    Prop where
  tracked : s.Tracked
  counted : s.metrics.writesFailed = s.failuresTold.length
  balance : (s.failuresTold ++ s.unseen ++ lost).Perm (faultsOf past)

/-- Every statement that is held back is that of a write still to be seen. -/
def Awaited (s : Service) : Prop := ∀ h ∈ s.held, ∃ f ∈ s.outstanding, f.ticket = h.1

variable {past : List Report} {gone : List (Statement × StoreFailure)}

theorem Tracked.learns (h : s.Tracked) (hl : s.Learns t seen lost) : t.Tracked := by
  have hmem : ∀ f ∈ t.outstanding, f ∈ s.outstanding := fun f hf =>
    hl.split.mem_iff.mp (List.mem_append_right _ hf)
  have hsplit := hl.split.map (·.ticket)
  rw [List.map_append] at hsplit
  refine ⟨h.ticketed.frame hl.held hl.issued, ?_, fun f hf => ?_, fun f hf => ?_⟩
  · exact (List.nodup_append.mp (hsplit.nodup_iff.mpr h.distinct)).2.1
  · rw [hl.issued]
    exact h.issued f (hmem f hf)
  · rw [hl.held]
    exact h.unanswered f (hmem f hf)

theorem Ledger.learns (h : Ledger past s gone) (hl : s.Learns t seen lost) :
    Ledger past t (gone ++ lost.filterMap Flight.storeFailure?) := by
  refine ⟨h.tracked.learns hl, ?_, ?_⟩
  · rw [hl.counted, hl.told, h.counted, List.length_append]
  · have hunseen := hl.split.filterMap Flight.storeFailure?
    rw [List.filterMap_append, List.filterMap_append] at hunseen
    have hmove : (t.unseen ++ (gone ++ lost.filterMap Flight.storeFailure?)).Perm
        (lost.filterMap Flight.storeFailure? ++ (t.unseen ++ gone)) := by
      rw [← List.append_assoc]
      exact List.perm_append_comm
    have hshift := hmove.append_left (s.failuresTold ++ seen.filterMap Flight.storeFailure?)
    have hsame := (hunseen.append_right gone).append_left s.failuresTold
    have hbalance := h.balance
    rw [hl.told]
    simp only [List.append_assoc] at hshift hsame hbalance ⊢
    exact hshift.trans (hsame.trans hbalance)

theorem Awaited.learns (h : s.Tracked) (ha : s.Awaited) (hl : s.Learns t seen []) :
    t.Awaited := by
  intro g hg
  rw [hl.held] at hg
  obtain ⟨f, hf, hticket⟩ := ha g hg
  obtain ⟨hsent, hnone⟩ := h.unanswered f hf g hg hticket.symm
  have hsplit := hl.split.mem_iff.mpr hf
  rw [List.append_nil, List.mem_append] at hsplit
  refine ⟨f, hsplit.resolve_left fun hseen => ?_, hticket⟩
  have hknown := hl.known f hseen
  simp [Flight.isKnown, Flight.outcome?, hsent, hnone] at hknown

section Accept

variable {worker : Nat} {marks : Marks}

theorem storeFailure?_flight (s : Service) (ticket : Nat) {a : Attempt} {st : Statement}
    (h : s.direct? a = some st) :
    (s.flight ticket a).storeFailure? =
      Report.fault? (.answered st (s.store.execute st).1) := by
  have hsent := Attempt.sent?_eq_some.mp (Option.filter_eq_some_iff.mp h).1
  simp only [flight, Flight.storeFailure?, h, hsent, Option.map_some]
  rcases (s.store.execute st).1 with failure | ⟨⟩ <;> rfl

theorem failures_flights (s : Service) (ticket : Nat) (as : List Attempt) :
    (s.flights ticket as).filterMap Flight.storeFailure? =
      faultsOf ((as.filterMap s.direct?).map fun st => .answered st (s.store.execute st).1) := by
  induction as generalizing ticket with
  | nil => rfl
  | cons a as ih =>
    rw [flights, List.filterMap_cons, ih]
    cases hd : s.direct? a with
    | none =>
      have hnone : (s.flight ticket a).storeFailure? = none := by
        simp only [flight, Flight.storeFailure?, hd, Option.map_none]
        split <;> simp_all
      rw [hnone, List.filterMap_cons_none hd]
    | some st =>
      rw [storeFailure?_flight s ticket hd, List.filterMap_cons_some hd]
      rfl

theorem outstanding_accept (h : s.workers[worker]? = some marks) (spans : List Span) :
    (s.accept worker spans).outstanding =
      s.outstanding ++ s.flights s.issued (s.started marks spans) := by
  rw [outstanding, accept_batches h, List.flatMap_append, List.flatMap_singleton,
    Batch.outstanding, Batch.ofFlights, List.append_nil]
  rfl

theorem failuresTold_accept (h : s.workers[worker]? = some marks) (spans : List Span) :
    (s.accept worker spans).failuresTold = s.failuresTold := by
  have hwarned : (s.warnings (spans.map Span.normalize)).filterMap Notice.failure? = [] := by
    simp only [warnings]
    split
    · split <;> rfl
    · rfl
  rw [failuresTold, accept_eq h]
  change (s.notices ++ s.warnings (spans.map Span.normalize)).filterMap Notice.failure? = _
  rw [List.filterMap_append, hwarned, List.append_nil]
  rfl

theorem faultsOf_accept (h : s.workers[worker]? = some marks) (spans : List Span) :
    faultsOf (s.reports (.accept worker spans)) =
      (s.flights s.issued (s.started marks spans)).filterMap Flight.storeFailure? := by
  have hspans : faultsOf (spans.map .accepted) = [] := by
    simp [faultsOf, Report.fault?]
  rw [reports_accept h, faultsOf_append, hspans, List.nil_append, failures_flights]

theorem Tracked.accept (hs : s.Tracked) (h : s.workers[worker]? = some marks)
    (spans : List Span) : (s.accept worker spans).Tracked := by
  refine ⟨ticketed_accept h hs.ticketed, ?_, fun f hf => ?_, fun f hf g hg hticket => ?_⟩
  · rw [outstanding_accept h, List.map_append, flights_tickets]
    refine List.nodup_append.mpr ⟨hs.distinct, List.nodup_range', fun n hn m hm heq => ?_⟩
    obtain ⟨f, hf, rfl⟩ := List.mem_map.mp hn
    have hlt := hs.issued f hf
    have hge := (List.mem_range'_1.mp hm).1
    omega
  · rw [outstanding_accept h, List.mem_append] at hf
    rw [accept_issued h]
    obtain hf | hf := hf
    · exact Nat.lt_add_right _ (hs.issued f hf)
    · exact (ticket_of_flight hf).2
  · rw [outstanding_accept h, List.mem_append] at hf
    obtain hf | hf := hf
    · rw [accept_held h, List.mem_append] at hg
      obtain hg | hg := hg
      · exact hs.unanswered f hf g hg hticket
      · have hlt := hs.issued f hf
        have hge := heldBack_le hg
        omega
    · obtain ⟨hsent, hnone⟩ := held_of_flight h hs.ticketed hf hg hticket
      have hstatement := Attempt.sent?_eq_some.mp hsent
      refine ⟨hstatement, ?_⟩
      simpa [Flight.outcome?, hstatement] using hnone

theorem Ledger.accept (hs : Ledger past s gone) (h : s.workers[worker]? = some marks)
    (spans : List Span) :
    Ledger (past ++ s.reports (.accept worker spans)) (s.accept worker spans) gone := by
  refine ⟨hs.tracked.accept h spans, ?_, ?_⟩
  · rw [metrics_accept h, failuresTold_accept h]
    exact hs.counted
  · have hunseen : (s.accept worker spans).unseen = s.unseen ++
        (s.flights s.issued (s.started marks spans)).filterMap Flight.storeFailure? := by
      rw [unseen, outstanding_accept h, List.filterMap_append, ← unseen]
    rw [faultsOf_append, faultsOf_accept h, failuresTold_accept h, hunseen]
    exact (perm_move_last ..).trans (hs.balance.append_right _)

theorem Awaited.accept (ha : s.Awaited) (h : s.workers[worker]? = some marks) (spans : List Span) :
    (s.accept worker spans).Awaited := by
  intro g hg
  rw [accept_held h, List.mem_append] at hg
  rw [outstanding_accept h]
  obtain hg | hg := hg
  · obtain ⟨f, hf, hticket⟩ := ha g hg
    exact ⟨f, List.mem_append_left _ hf, hticket⟩
  · obtain ⟨k, a, hk, hticket, -⟩ := mem_heldBack hg
    have hlt := (List.getElem?_eq_some_iff.mp hk).1
    have hmem : g.1 ∈ (s.flights s.issued (s.started marks spans)).map (·.ticket) := by
      rw [flights_tickets, List.mem_range'_1]
      omega
    obtain ⟨f, hf, heq⟩ := List.mem_map.mp hmem
    exact ⟨f, List.mem_append_right _ hf, heq⟩

end Accept

section Resolve

variable {ticket : Nat}

theorem outstanding_resolve {h : Nat × Statement} (hh : s.heldUnder? ticket = some h)
    (fate : Fate) :
    (s.resolveUnder fate ticket).outstanding.Perm
      (s.outstanding.map (Batch.answer h.1 (s.replyTo h.2 fate))) := by
  rw [resolveUnder_of_some hh, outstanding, outstanding, List.map_flatMap, List.flatMap_map]
  exact List.Perm.flatMap_left _ fun b _ => b.reply_perm h.1 _

theorem mem_outstanding_resolve {h : Nat × Statement} (hh : s.heldUnder? ticket = some h)
    {fate : Fate} {g : Flight} (hg : g ∈ (s.resolveUnder fate ticket).outstanding) :
    ∃ f ∈ s.outstanding, Batch.answer h.1 (s.replyTo h.2 fate) f = g :=
  List.mem_map.mp ((outstanding_resolve hh fate).mem_iff.mp hg)

theorem tickets_resolve {h : Nat × Statement} (hh : s.heldUnder? ticket = some h) (fate : Fate) :
    ((s.resolveUnder fate ticket).outstanding.map (·.ticket)).Perm
      (s.outstanding.map (·.ticket)) := by
  have hmap := (outstanding_resolve hh fate).map (·.ticket)
  rw [List.map_map] at hmap
  exact hmap.trans (.of_eq (List.map_congr_left fun f _ => (Batch.answer_attempt ..).2))

theorem Tracked.resolve (hs : s.Tracked) {h : Nat × Statement}
    (hh : s.heldUnder? h.1 = some h) (fate : Fate) : (s.resolveUnder fate h.1).Tracked := by
  have hheld : (s.resolveUnder fate h.1).held = s.held.filter (·.1 ≠ h.1) := by
    rw [resolveUnder_of_some hh]
  have hissued : (s.resolveUnder fate h.1).issued = s.issued := by rw [resolveUnder_of_some hh]
  refine ⟨ticketed_resolve hs.ticketed fate hh,
    (tickets_resolve hh fate).nodup_iff.mpr hs.distinct, ?_, ?_⟩
  · intro g hg
    obtain ⟨f, hf, rfl⟩ := mem_outstanding_resolve hh hg
    rw [(Batch.answer_attempt ..).2, hissued]
    exact hs.issued f hf
  · intro g hg held hmem hticket
    obtain ⟨f, hf, rfl⟩ := mem_outstanding_resolve hh hg
    rw [hheld] at hmem
    obtain ⟨hold, hne⟩ := List.mem_filter.mp hmem
    rw [(Batch.answer_attempt ..).2] at hticket
    have hother : f.ticket ≠ h.1 := fun heq => of_decide_eq_true hne (hticket.trans heq)
    have hsame : Batch.answer h.1 (s.replyTo h.2 fate) f = f := if_neg hother
    rw [hsame]
    exact hs.unanswered f hf held hold hticket

theorem Awaited.resolve (ha : s.Awaited) {h : Nat × Statement}
    (hh : s.heldUnder? h.1 = some h) (fate : Fate) : (s.resolveUnder fate h.1).Awaited := by
  intro g hg
  rw [resolveUnder_of_some hh] at hg
  obtain ⟨f, hf, hticket⟩ := ha g (List.mem_of_mem_filter hg)
  refine ⟨_, (outstanding_resolve hh fate).mem_iff.mpr (List.mem_map_of_mem hf), ?_⟩
  rw [(Batch.answer_attempt ..).2, hticket]

theorem Ledger.resolve (hs : Ledger past s gone) {h : Nat × Statement}
    (hh : s.heldUnder? h.1 = some h) (fate : Fate) :
    ∃ more, Ledger (past ++ [.answered h.2 (s.replyTo h.2 fate)]) (s.resolveUnder fate h.1)
        (gone ++ more) ∧
      (s.Awaited → more = []) := by
  have hmem := (mem_held_of_heldUnder? hh).1
  have hunseen := (outstanding_resolve hh fate).filterMap Flight.storeFailure?
  have htold : (s.resolveUnder fate h.1).failuresTold = s.failuresTold := by
    rw [resolveUnder_of_some hh]
    rfl
  have hcounted : (s.resolveUnder fate h.1).metrics.writesFailed =
      (s.resolveUnder fate h.1).failuresTold.length := by
    rw [htold, resolveUnder_of_some hh]
    exact hs.counted
  by_cases hwaits : ∃ f ∈ s.outstanding, f.ticket = h.1
  · obtain ⟨f, hf, hticket⟩ := hwaits
    obtain ⟨hst, hnone⟩ := hs.tracked.unanswered f hf h hmem hticket.symm
    have hanswered := Batch.failures_answered (r := s.replyTo h.2 fate) hf hs.tracked.distinct hst hnone
    rw [hticket] at hanswered
    refine ⟨[], ⟨hs.tracked.resolve hh fate, hcounted, ?_⟩, fun _ => rfl⟩
    have hsame := ((hunseen.trans hanswered).append_left s.failuresTold).append_right gone
    rw [htold, faultsOf_append, List.append_nil]
    exact (hsame.trans (perm_move_last ..)).trans (hs.balance.append_right _)
  · have hnobody : ∀ f ∈ s.outstanding, f.ticket ≠ h.1 := fun f hf heq => hwaits ⟨f, hf, heq⟩
    rw [Batch.map_answer_of_ne hnobody] at hunseen
    refine ⟨faultsOf [.answered h.2 (s.replyTo h.2 fate)], ⟨hs.tracked.resolve hh fate, hcounted, ?_⟩,
      fun ha => absurd (ha h hmem) hwaits⟩
    rw [htold, faultsOf_append, ← List.append_assoc]
    have hsame := (hunseen.append_left s.failuresTold).append_right gone
    exact (hsame.trans hs.balance).append_right _

end Resolve

def GivesUp (s : Service) : Action → Prop
  | .settleAlone _ => True
  | .drop i => ∃ b, s.batches[i]? = some b ∧ b.isPending
  | .hire | .accept .. | .advance .. | .observe _ | .resolve .. | .look _ | .setClock _
  | .setFaults _ | .setOptions .. => False

/-- What an action comes to: batches are looked at and given up, spans are accepted, or the store
answers a statement that was held back. -/
inductive Course (s : Service) : Action → Prop
  | learns {a : Action} {seen lost : List Flight} (known : s.Learns (s.act a) seen lost)
    (untold : s.reports a = []) (unsent : s.dispatched a = [])
    (kept : ¬ s.GivesUp a → lost = []) : s.Course a
  | accepts {worker : Nat} {marks : Marks} (hired : s.workers[worker]? = some marks)
    (spans : List Span) : s.Course (.accept worker spans)
  | resolves {h : Nat × Statement} (held : s.heldUnder? h.1 = some h) (fate : Fate) :
    s.Course (.resolve fate h.1)

theorem course (s : Service) (a : Action) : s.Course a := by
  have unchanged : s.reports a = [] → s.act a = s → s.Course a := fun huntold hsame =>
    .learns (by rw [hsame]; exact .refl s) huntold
      (dispatched_of_quiet (by rw [hsame]; exact .refl s)) fun _ => rfl
  have quiet (h : Action.isAccept a = false) : s.dispatched a = [] :=
    dispatched_of_quiet (quiet_act h s).1
  cases a with
  | hire | look | setClock | setFaults | setOptions =>
    exact .learns (.of_frame rfl rfl rfl rfl rfl) (replies_of_log rfl) (quiet rfl) fun _ => rfl
  | advance i place =>
    have huntold := replies_of_tending (a := .advance i place) (tending_advance s i place)
    exact .learns (learns_advance s i place) huntold (quiet rfl) fun _ => rfl
  | observe i =>
    obtain ⟨seen, hl⟩ := learns_observe i s
    exact .learns hl (replies_of_tending (tending_observe i s)) (quiet rfl) fun _ => rfl
  | drop i =>
    obtain ⟨lost, hl, hkept⟩ := learns_drop s i
    refine .learns hl (replies_of_tending (tending_drop s i)) (quiet rfl) fun hkeeps => ?_
    exact hkept fun b hb hpending => hkeeps ⟨b, hb, hpending⟩
  | settleAlone i =>
    obtain ⟨seen, lost, hl⟩ := learns_settleAlone s i
    have huntold := replies_of_tending (a := .settleAlone i) (tending_settleAlone s i)
    exact .learns hl huntold (quiet rfl) fun hkeeps => absurd trivial hkeeps
  | accept worker spans =>
    cases h : s.workers[worker]? with
    | none => exact unchanged (reports_accept_of_none h spans) (accept_of_none h spans)
    | some marks => exact .accepts h spans
  | resolve fate ticket =>
    cases hh : s.heldUnder? ticket with
    | none => exact unchanged (reports_resolve_of_none hh fate) (resolveUnder_of_none hh fate)
    | some held =>
      obtain ⟨-, rfl⟩ := mem_held_of_heldUnder? hh
      exact .resolves hh fate

theorem ledger_act (hs : Ledger past s gone) (a : Action) :
    ∃ more, Ledger (past ++ s.reports a) (s.act a) (gone ++ more) ∧
      (¬ s.GivesUp a → s.Awaited → more = [] ∧ (s.act a).Awaited) := by
  cases s.course a with
  | learns known untold _ kept =>
    rw [untold, List.append_nil]
    refine ⟨_, hs.learns known, fun hkeeps ha => ?_⟩
    obtain rfl := kept hkeeps
    exact ⟨rfl, ha.learns hs.tracked known⟩
  | accepts hired spans =>
    refine ⟨[], ?_, fun _ ha => ⟨rfl, ha.accept hired spans⟩⟩
    rw [List.append_nil]
    exact hs.accept hired spans
  | resolves held fate =>
    obtain ⟨more, hmore, hkept⟩ := hs.resolve held fate
    rw [reports_resolve held]
    exact ⟨more, hmore, fun _ ha => ⟨hkept ha, ha.resolve held fate⟩⟩

theorem ledger_run (hs : Ledger past s gone) (actions : List Action) :
    ∃ more, Ledger (past ++ s.history actions) (s.run actions) (gone ++ more) := by
  induction actions generalizing s past gone with
  | nil => exact ⟨[], by simpa [history] using hs⟩
  | cons a rest ih =>
    obtain ⟨first, hfirst, -⟩ := ledger_act hs a
    obtain ⟨others, hrest⟩ := ih hfirst
    rw [List.append_assoc, List.append_assoc] at hrest
    exact ⟨first ++ others, hrest⟩

theorem dropped_run (hb : s.batches[i]? = some b) (hpending : b.isPending) (later : List Action) :
    ∃ b', ((s.act (.drop i)).run later).batches[i]? = some b' ∧ b'.state = .dropped := by
  have hfailure : b.failure = none := by
    cases hf : b.failure with
    | none => rfl
    | some first => simp [Batch.isPending, Batch.state, hf] at hpending
  have hdrop : (s.act (.drop i)).batches[i]? = some { b with isDropped := true }.forget := by
    simp only [act, drop, hb, hpending, ↓reduceIte]
    exact getElem?_set_of_some hb _
  obtain ⟨b', hb', hdropped, hnone, -⟩ := Batch.abandoned_stable.run later hdrop ⟨rfl, hfailure, rfl⟩
  exact ⟨b', hb', by rw [Batch.state, hnone]; exact if_pos hdropped⟩

/-- Nothing is lost in a run with somebody to look at its batches later, none of which ends up
dropped. -/
theorem whole_run (hs : Ledger past s []) (ha : s.Awaited) {actions : List Action}
    (looked : ∀ i, .settleAlone i ∉ actions)
    (kept : ∀ b ∈ (s.run actions).batches, b.state ≠ .dropped) :
    Ledger (past ++ s.history actions) (s.run actions) [] := by
  induction actions generalizing s past with
  | nil => simpa [history] using hs
  | cons a rest ih =>
    obtain ⟨more, hmore, hkept⟩ := ledger_act hs a
    have hkeeps : ¬ s.GivesUp a := fun hgives => by
      cases a with
      | settleAlone i => exact looked i List.mem_cons_self
      | drop i =>
        obtain ⟨b, hb, hpending⟩ := hgives
        obtain ⟨b', hb', hstate⟩ := dropped_run hb hpending rest
        exact kept b' (List.mem_of_getElem? hb') hstate
      | hire | accept | advance | observe | resolve | look | setClock | setFaults | setOptions =>
        exact hgives
    obtain ⟨rfl, ha'⟩ := hkept hkeeps ha
    have hrest := ih hmore ha' (fun i hi => looked i (List.mem_cons_of_mem _ hi)) kept
    rwa [List.append_assoc] at hrest

end Service

end TraceIndex
