import Mathlib.Data.List.Induction
import TraceIndex.Proofs.Endings

namespace TraceIndex

abbrev Arrival := Nat × Except StoreFailure Unit

def failureIn? : Except Failure Unit → Option Failure
  | .ok () => none
  | .error failure => some failure

namespace Flight

def after (f : Flight) (arrivals : List Arrival) : Flight :=
  arrivals.foldl (fun f a => Batch.answer a.1 a.2 f) f

variable {f : Flight} {arrivals : List Arrival}

theorem after_append (f : Flight) (arrivals more : List Arrival) :
    f.after (arrivals ++ more) = (f.after arrivals).after more := List.foldl_append

theorem after_frame (f : Flight) (arrivals : List Arrival) :
    (f.after arrivals).attempt = f.attempt ∧ (f.after arrivals).ticket = f.ticket := by
  induction arrivals generalizing f with
  | nil => exact ⟨rfl, rfl⟩
  | cons a arrivals ih =>
    obtain ⟨hattempt, hticket⟩ := Batch.answer_attempt a.1 a.2 f
    obtain ⟨hattempt', hticket'⟩ := ih (Batch.answer a.1 a.2 f)
    exact ⟨hattempt'.trans hattempt, hticket'.trans hticket⟩

theorem after_of_notMem (h : f.ticket ∉ arrivals.map (·.1)) : f.after arrivals = f := by
  induction arrivals with
  | nil => rfl
  | cons a arrivals ih =>
    obtain ⟨hne, hrest⟩ := not_or.mp (mt List.mem_cons.mpr h)
    have hstep : Batch.answer a.1 a.2 f = f := if_neg hne
    rw [after, List.foldl_cons, hstep]
    exact ih hrest

theorem isKnown_iff : f.isKnown ↔ f.attempt.sent? = none ∨ f.reply.isSome := by
  cases h : f.attempt.statement <;>
    simp [isKnown, outcome?, Attempt.sent?, h, Except.toOption]

theorem isKnown_after :
    (f.after arrivals).isKnown ↔ f.isKnown ∨ f.ticket ∈ arrivals.map (·.1) := by
  induction arrivals generalizing f with
  | nil => simp [after]
  | cons a arrivals ih =>
    change ((Batch.answer a.1 a.2 f).after arrivals).isKnown ↔ _
    obtain ⟨hattempt, hticket⟩ := Batch.answer_attempt a.1 a.2 f
    rw [ih, hticket, isKnown_iff, isKnown_iff, hattempt, List.map_cons, List.mem_cons]
    by_cases h : f.ticket = a.1 <;> simp [Batch.answer, h]

end Flight

namespace Batch

/-- What a batch of so many writes comes to, by the outcomes that were seen, in order. -/
def verdict (size : Nat) (seen : List (Except Failure Unit)) : BatchState :=
  match seen.findSome? failureIn? with
  | some first => .done (.error (.batch size first))
  | none => if seen.length = size then .done (.ok ()) else .pending

section Verdict

variable {size : Nat} {seen seen' : List (Except Failure Unit)}

theorem findSome?_failureIn?_eq_none :
    seen.findSome? failureIn? = none ↔ ∀ outcome ∈ seen, outcome = .ok () := by
  rw [List.findSome?_eq_none_iff]
  apply forall₂_congr
  intro outcome _
  cases outcome <;> simp [failureIn?]

theorem verdict_eq_ok :
    verdict size seen = .done (.ok ()) ↔ (∀ outcome ∈ seen, outcome = .ok ()) ∧
      seen.length = size := by
  rw [← findSome?_failureIn?_eq_none, verdict]
  cases seen.findSome? failureIn? with
  | some first => simp
  | none => by_cases h : seen.length = size <;> simp [h]

theorem verdict_eq_error :
    (∃ failure, verdict size seen = .done (.error failure)) ↔
      ∃ failure, .error failure ∈ seen := by
  have hnone := @findSome?_failureIn?_eq_none seen
  rw [verdict]
  cases hfirst : seen.findSome? failureIn? with
  | some first =>
    obtain ⟨outcome, hmem, houtcome⟩ := List.exists_of_findSome?_eq_some hfirst
    cases outcome with
    | ok => cases houtcome
    | error failure => exact iff_of_true ⟨_, rfl⟩ ⟨failure, hmem⟩
  | none =>
    have hok := hnone.mp hfirst
    apply iff_of_false
    · by_cases h : seen.length = size <;> simp [h]
    · rintro ⟨failure, h⟩
      cases hok _ h

theorem first_of_verdict {failure : Failure} (h : verdict size seen = .done (.error failure)) :
    ∃ first, failure = .batch size first ∧ seen.findSome? failureIn? = some first := by
  cases hfirst : seen.findSome? failureIn? with
  | some first =>
    simp only [verdict, hfirst] at h
    cases h
    exact ⟨first, rfl, rfl⟩
  | none =>
    simp only [verdict, hfirst] at h
    split at h <;> cases h

end Verdict

def watch (b : Batch) : Batch :=
  match b.scan.look? with
  | none => b.scan
  | some (_, _, after) => after

/-- A batch once all that is known of it has been seen. -/
def settled (b : Batch) : Batch :=
  { b with
    ready := []
    waiting := b.waiting ++ b.ready.filter (!·.isKnown)
    failure := b.failure <|> (b.ready.filterMap Flight.outcome?).findSome? failureIn? }

variable {b : Batch}

theorem settled_of_ready (h : b.ready = []) : b.settled = b := by
  obtain ⟨worker, size, ready, waiting, failure, isDropped⟩ := b
  simp only at h
  subst h
  simp [settled]

theorem watch_known {f : Flight} {rest : List Flight} {outcome : Except Failure Unit}
    (hready : b.ready = f :: rest) (hf : f.outcome? = some outcome) :
    b.watch = { b with ready := rest, failure := b.failure <|> failureIn? outcome } := by
  have hknown : f.isKnown = true := by simp [Flight.isKnown, hf]
  have hscan : b.scan = b := by
    obtain ⟨worker, size, ready, waiting, failure, isDropped⟩ := b
    simp only at hready
    subst hready
    simp [scan, hknown]
  rw [watch, hscan]
  cases outcome with
  | ok => simp [look?, hready, hf, failureIn?]
  | error failure => simp [look?, hready, hf, failureIn?]

theorem watch_unknown {f : Flight} {rest : List Flight} (hready : b.ready = f :: rest)
    (hf : f.outcome? = none) :
    b.watch = watch { b with ready := rest, waiting := b.waiting ++ [f] } := by
  have hknown : f.isKnown = false := by simp [Flight.isKnown, hf]
  have hscan : b.scan = scan { b with ready := rest, waiting := b.waiting ++ [f] } := by
    simp [scan, hready, hknown]
  rw [watch, watch, hscan]

theorem watch_nil (h : b.ready = []) : b.watch = b := by
  obtain ⟨worker, size, ready, waiting, failure, isDropped⟩ := b
  simp only at h
  subst h
  simp [watch, scan, look?]

theorem settled_watch (b : Batch) :
    b.watch.settled = b.settled ∧ b.watch.ready.length ≤ b.ready.length - 1 := by
  generalize hready : b.ready = ready
  induction ready generalizing b with
  | nil =>
    rw [watch_nil hready, hready]
    exact ⟨rfl, Nat.le_refl _⟩
  | cons f rest ih =>
    cases hf : f.outcome? with
    | none =>
      have hknown : f.isKnown = false := by simp [Flight.isKnown, hf]
      obtain ⟨hsettled, hlength⟩ := ih { b with ready := rest, waiting := b.waiting ++ [f] } rfl
      rw [watch_unknown hready hf]
      refine ⟨hsettled.trans ?_, Nat.le_trans hlength (Nat.sub_le ..)⟩
      simp [settled, hready, hknown, hf]
    | some outcome =>
      have hknown : f.isKnown = true := by simp [Flight.isKnown, hf]
      rw [watch_known hready hf]
      refine ⟨?_, Nat.le_refl _⟩
      cases outcome with
      | ok => simp [settled, hready, hknown, hf, failureIn?, List.findSome?_cons]
      | error failure =>
        cases hfailure : b.failure <;>
          simp [settled, hready, hknown, hf, failureIn?, hfailure, List.findSome?_cons]

theorem repeat_watch (b : Batch) : Nat.repeat watch b.ready.length b = b.settled := by
  have looked : ∀ n, (Nat.repeat watch n b).settled = b.settled ∧
      (Nat.repeat watch n b).ready.length ≤ b.ready.length - n := by
    intro n
    induction n with
    | zero => exact ⟨rfl, Nat.le_refl _⟩
    | succ n ih =>
      obtain ⟨hsettled, hlength⟩ := settled_watch (Nat.repeat watch n b)
      refine ⟨hsettled.trans ih.1, ?_⟩
      change (Nat.repeat watch n b).watch.ready.length ≤ _
      omega
  obtain ⟨hsettled, hlength⟩ := looked b.ready.length
  rw [← hsettled]
  exact (settled_of_ready (List.eq_nil_of_length_eq_zero (by omega))).symm

def replies (b : Batch) (arrivals : List Arrival) : Batch :=
  arrivals.foldl (fun b a => b.reply a.1 a.2) b

theorem replies_of_waiting (h : b.waiting = []) (arrivals : List Arrival) :
    b.replies arrivals = { b with ready := b.ready.map (·.after arrivals) } := by
  induction arrivals generalizing b with
  | nil => simp [replies, Flight.after]
  | cons a arrivals ih =>
    have hstep : b.reply a.1 a.2 = { b with ready := b.ready.map (answer a.1 a.2) } := by
      simp [reply, h]
    have hrest := @ih { b with ready := b.ready.map (answer a.1 a.2) } h
    rw [replies, List.foldl_cons, hstep]
    apply hrest.trans
    rw [List.map_map]
    rfl

def completion? (flights : List Flight) (a : Arrival) : Option (Except Failure Unit) :=
  (flights.find? (·.ticket = a.1)).bind fun f => (answer a.1 a.2 f).outcome?

/-- The outcomes of writes in the order in which they are seen: those that are known once the first
replies have arrived, in the order of the writes, and the others as they arrive. -/
def outcomes (flights : List Flight) (first rest : List Arrival) : List (Except Failure Unit) :=
  flights.filterMap (fun f => (f.after first).outcome?) ++ rest.filterMap (completion? flights)

/-- Replies that may arrive: one at most for each write, and none to a write that is known. -/
structure Answers (flights : List Flight) (arrivals : List Arrival) : Prop where
  distinct : (flights.map (·.ticket)).Nodup
  once : (arrivals.map (·.1)).Nodup
  unknown : ∀ f ∈ flights, f.ticket ∈ arrivals.map (·.1) → f.outcome? = none

section Answers

variable {flights : List Flight} {first rest arrivals : List Arrival} {a : Arrival}

theorem Answers.tail {f : Flight} (h : Answers (f :: flights) arrivals) :
    Answers flights arrivals :=
  ⟨(List.nodup_cons.mp h.distinct).2, h.once, fun g hg => h.unknown g (List.mem_cons_of_mem _ hg)⟩

theorem Answers.left (h : Answers flights (arrivals ++ rest)) : Answers flights arrivals := by
  refine ⟨h.distinct, ?_, fun f hf hticket => h.unknown f hf ?_⟩
  · exact h.once.sublist ((List.sublist_append_left ..).map _)
  · rw [List.map_append]
    exact List.mem_append_left _ hticket

theorem Answers.next (h : Answers flights (arrivals ++ [a])) {f : Flight} (hf : f ∈ flights)
    (hticket : f.ticket = a.1) :
    f.after arrivals = f ∧ f.outcome? = none ∧
      ∃ outcome, (answer a.1 a.2 f).outcome? = some outcome := by
  have honce := h.once
  rw [List.map_append, List.nodup_append] at honce
  have hnew : f.ticket ∉ arrivals.map (·.1) := fun hmem =>
    honce.2.2 _ hmem _ (List.mem_singleton.mpr hticket) rfl
  have hunknown : f.outcome? = none := by
    apply h.unknown f hf
    rw [List.map_append]
    exact List.mem_append_right _ (List.mem_singleton.mpr hticket)
  have hknown : (f.after [a]).isKnown :=
    Flight.isKnown_after.mpr (.inr (List.mem_singleton.mpr hticket))
  exact ⟨Flight.after_of_notMem hnew, hunknown, Option.isSome_iff_exists.mp hknown⟩

/-- An arrival adds the outcome that it gives to one of the writes. -/
theorem outcomes_arrive (h : Answers flights (arrivals ++ [a])) :
    (flights.filterMap (fun f => (f.after arrivals).outcome?) ++
        (completion? flights a).toList).Perm
      (flights.filterMap fun f => (f.after (arrivals ++ [a])).outcome?) := by
  induction flights with
  | nil => exact .rfl
  | cons f flights ih =>
    have hafter : ∀ g : Flight, g.after (arrivals ++ [a]) = answer a.1 a.2 (g.after arrivals) :=
      fun g => g.after_append arrivals [a]
    by_cases hticket : f.ticket = a.1
    · obtain ⟨hsame, hunknown, outcome, houtcome⟩ := h.next List.mem_cons_self hticket
      have hcompletion : completion? (f :: flights) a = some outcome := by
        simp [completion?, hticket, houtcome]
      have hothers : flights.filterMap (fun g => (g.after (arrivals ++ [a])).outcome?) =
          flights.filterMap fun g => (g.after arrivals).outcome? := by
        apply List.filterMap_congr
        intro g hg
        have hne : g.ticket ≠ a.1 := fun heq =>
          (List.nodup_cons.mp h.distinct).1 (List.mem_map.mpr ⟨g, hg, heq.trans hticket.symm⟩)
        have hsame : answer a.1 a.2 (g.after arrivals) = g.after arrivals :=
          if_neg ((g.after_frame arrivals).2 ▸ hne)
        rw [hafter, hsame]
      rw [List.filterMap_cons_none (by rw [hsame, hunknown]), hcompletion,
        List.filterMap_cons_some (by rw [hafter, hsame, houtcome]), hothers]
      exact List.perm_append_singleton ..
    · have hcompletion : completion? (f :: flights) a = completion? flights a := by
        simp [completion?, hticket]
      have hsame : f.after (arrivals ++ [a]) = f.after arrivals :=
        (hafter f).trans (if_neg ((f.after_frame arrivals).2 ▸ hticket))
      have hrest := ih h.tail
      rw [hcompletion, List.filterMap_cons, List.filterMap_cons, hsame]
      cases (f.after arrivals).outcome? with
      | none => exact hrest
      | some outcome => exact hrest.cons outcome

theorem outcomes_perm (h : Answers flights (first ++ rest)) :
    (outcomes flights first rest).Perm
      (flights.filterMap fun f => (f.after (first ++ rest)).outcome?) := by
  induction rest using List.reverseRecOn with
  | nil => simp [outcomes]
  | append_singleton rest a ih =>
    rw [← List.append_assoc] at h ⊢
    have hsplit : outcomes flights first (rest ++ [a]) =
        outcomes flights first rest ++ (completion? flights a).toList := by
      cases hc : completion? flights a <;> simp [outcomes, hc]
    rw [hsplit]
    exact ((ih h.left).append_right _).trans (outcomes_arrive h)

theorem outcomes_of_known (h : Answers flights (first ++ rest))
    (hknown : ∀ f ∈ flights, f.isKnown) :
    outcomes flights first rest = flights.filterMap Flight.outcome? := by
  have hnone : ∀ f ∈ flights, f.ticket ∉ (first ++ rest).map (·.1) := by
    intro f hf hticket
    have hf' := hknown f hf
    rw [Flight.isKnown, h.unknown f hf hticket] at hf'
    cases hf'
  have hfirst : ∀ f ∈ flights, (f.after first).outcome? = f.outcome? := by
    intro f hf
    rw [Flight.after_of_notMem fun hmem => hnone f hf ?_]
    rw [List.map_append]
    exact List.mem_append_left _ hmem
  have hrest : ∀ a ∈ rest, completion? flights a = none := by
    intro a ha
    have hfind : flights.find? (·.ticket = a.1) = none := by
      apply List.find?_eq_none.mpr
      intro f hf hticket
      refine hnone f hf ?_
      rw [of_decide_eq_true hticket, List.map_append]
      exact List.mem_append_right _ (List.mem_map_of_mem ha)
    rw [completion?, hfind, Option.bind_none]
  rw [outcomes, List.filterMap_eq_nil_iff.mpr hrest, List.append_nil, List.filterMap_congr hfirst]

theorem length_filterMap_eq {α β : Type} {g : α → Option β} {l : List α} :
    (l.filterMap g).length = l.length ↔ ∀ a ∈ l, (g a).isSome := by
  induction l with
  | nil => simp
  | cons a l ih =>
    have hle := List.length_filterMap_le g l
    cases ha : g a with
    | none => simp [ha]; omega
    | some b => simp [ha, ih]

theorem verdict_outcomes_ok (h : Answers flights (first ++ rest)) :
    verdict flights.length (outcomes flights first rest) = .done (.ok ()) ↔
      ∀ f ∈ flights, (f.after (first ++ rest)).outcome? = some (.ok ()) := by
  have hperm := outcomes_perm h
  rw [verdict_eq_ok, hperm.length_eq, length_filterMap_eq]
  constructor
  · rintro ⟨hok, hknown⟩ f hf
    obtain ⟨outcome, houtcome⟩ := Option.isSome_iff_exists.mp (hknown f hf)
    rw [houtcome, hok outcome (hperm.mem_iff.mpr (List.mem_filterMap.mpr ⟨f, hf, houtcome⟩))]
  · intro hok
    refine ⟨fun outcome houtcome => ?_, fun f hf => by rw [hok f hf]; rfl⟩
    obtain ⟨f, hf, hf'⟩ := List.mem_filterMap.mp (hperm.mem_iff.mp houtcome)
    exact Option.some.inj (hf'.symm.trans (hok f hf))

theorem verdict_outcomes_error (h : Answers flights (first ++ rest)) :
    (∃ failure, verdict flights.length (outcomes flights first rest) = .done (.error failure)) ↔
      ∃ f ∈ flights, ∃ failure, (f.after (first ++ rest)).outcome? = some (.error failure) := by
  rw [verdict_eq_error]
  constructor
  · rintro ⟨failure, hfailure⟩
    obtain ⟨f, hf, houtcome⟩ :=
      List.mem_filterMap.mp ((outcomes_perm h).mem_iff.mp hfailure)
    exact ⟨f, hf, failure, houtcome⟩
  · rintro ⟨f, hf, failure, houtcome⟩
    exact ⟨failure, (outcomes_perm h).mem_iff.mpr (List.mem_filterMap.mpr ⟨f, hf, houtcome⟩)⟩

end Answers

/-- A batch that was looked at when the first replies had arrived, and has got the rest since: it
waits for the writes without a reply, and what it has seen or will see next are the outcomes in
their order. -/
structure Underway (b : Batch) (flights : List Flight) (first rest : List Arrival) : Prop where
  size : b.size = flights.length
  isDropped : b.isDropped = false
  known : ∀ f ∈ b.ready, f.isKnown
  arrived : ∀ f ∈ b.ready, f.ticket ∈ (first ++ rest).map (·.1)
  waiting : b.waiting = flights.filter fun f => !(f.after (first ++ rest)).isKnown
  failure : (b.failure <|> (b.ready.filterMap Flight.outcome?).findSome? failureIn?) =
    (outcomes flights first rest).findSome? failureIn?

section Underway

variable {flights : List Flight} {first rest : List Arrival} {a : Arrival}

theorem underway_settled (worker : Nat) (flights : List Flight) (first : List Arrival) :
    ((Batch.ofFlights worker flights).replies first).settled.Underway flights first [] := by
  have hreplies := replies_of_waiting (b := .ofFlights worker flights) rfl first
  rw [hreplies]
  refine ⟨rfl, rfl, fun f hf => absurd hf List.not_mem_nil, fun f hf => absurd hf List.not_mem_nil,
    ?_, ?_⟩
  · simp only [settled, ofFlights, List.nil_append, List.append_nil, List.filter_map]
    have hsame : ∀ f ∈ flights.filter ((fun f => !f.isKnown) ∘ (·.after first)),
        f.after first = id f := by
      intro f hf
      apply Flight.after_of_notMem
      intro hmem
      have hknown : (f.after first).isKnown := Flight.isKnown_after.mpr (.inr hmem)
      simp [hknown] at hf
    rw [List.map_congr_left hsame, List.map_id]
    rfl
  · simp only [settled, ofFlights, outcomes, List.filterMap_map]
    simp

theorem Underway.watch (h : b.Underway flights first rest) :
    b.watch.Underway flights first rest := by
  cases hready : b.ready with
  | nil =>
    rw [watch_nil hready]
    exact h
  | cons f ready =>
    obtain ⟨outcome, hf⟩ : ∃ outcome, f.outcome? = some outcome :=
      Option.isSome_iff_exists.mp (h.known f (hready ▸ List.mem_cons_self))
    have hfailure := h.failure
    rw [hready, List.filterMap_cons_some hf] at hfailure
    rw [watch_known hready hf]
    refine ⟨h.size, h.isDropped, ?_, ?_, h.waiting, ?_⟩
    · intro g hg
      exact h.known g (hready ▸ List.mem_cons_of_mem _ hg)
    · intro g hg
      exact h.arrived g (hready ▸ List.mem_cons_of_mem _ hg)
    · rw [← hfailure]
      cases outcome <;> simp [failureIn?, List.findSome?_cons]

theorem find?_ticket {flights : List Flight} (h : (flights.map (·.ticket)).Nodup) (ticket : Nat) :
    flights.filter (·.ticket = ticket) = (flights.find? (·.ticket = ticket)).toList := by
  induction flights with
  | nil => rfl
  | cons f flights ih =>
    obtain ⟨hnew, hrest⟩ := List.nodup_cons.mp h
    by_cases hticket : f.ticket = ticket
    · have hnone : flights.filter (·.ticket = ticket) = [] := by
        apply List.filter_eq_nil_iff.mpr
        intro g hg hg'
        have heq : g.ticket = ticket := of_decide_eq_true hg'
        exact hnew (List.mem_map.mpr ⟨g, hg, heq.trans hticket.symm⟩)
      simp [hticket, hnone]
    · simp [hticket, ih hrest]

theorem Underway.reply (h : b.Underway flights first rest)
    (ha : Answers flights (first ++ rest ++ [a])) :
    (b.reply a.1 a.2).Underway flights first (rest ++ [a]) := by
  -- What is ready has its reply, so that this one is for a write that waits.
  have hready : b.ready.map (answer a.1 a.2) = b.ready := by
    apply map_answer_of_ne
    intro f hf heq
    have honce := ha.once
    rw [List.map_append, List.nodup_append] at honce
    exact honce.2.2 _ (h.arrived f hf) _ (List.mem_singleton.mpr heq) rfl
  have hcalled : b.waiting.filter (·.ticket = a.1) =
      (flights.find? (·.ticket = a.1)).toList := by
    rw [h.waiting, List.filter_filter, ← find?_ticket ha.distinct]
    apply List.filter_congr
    intro f hf
    by_cases hticket : f.ticket = a.1
    · obtain ⟨hsame, hunknown, -⟩ := ha.next hf hticket
      simp [hsame, hticket, Flight.isKnown, hunknown]
    · simp [hticket]
  have houtcome : ((flights.find? (·.ticket = a.1)).toList.map (answer a.1 a.2)).filterMap
      Flight.outcome? = (completion? flights a).toList := by
    rw [completion?]
    cases flights.find? (·.ticket = a.1) with
    | none => rfl
    | some f => cases hf : (answer a.1 a.2 f).outcome? <;> simp [hf]
  refine ⟨h.size, h.isDropped, ?_, ?_, ?_, ?_⟩
  · intro f hf
    simp only [Batch.reply, hready, hcalled, List.mem_append, List.mem_map, Option.mem_toList] at hf
    obtain hf | ⟨g, hg, rfl⟩ := hf
    · exact h.known f hf
    · obtain ⟨-, -, outcome, houtcome⟩ := ha.next (List.mem_of_find?_eq_some hg)
        (by simpa using List.find?_some hg)
      simp [Flight.isKnown, houtcome]
  · intro f hf
    simp only [Batch.reply, hready, hcalled, List.mem_append, List.mem_map, Option.mem_toList] at hf
    rw [← List.append_assoc, List.map_append]
    obtain hf | ⟨g, hg, rfl⟩ := hf
    · exact List.mem_append_left _ (h.arrived f hf)
    · have hticket : g.ticket = a.1 := by simpa using List.find?_some hg
      rw [(answer_attempt a.1 a.2 g).2]
      exact List.mem_append_right _ (List.mem_singleton.mpr hticket)
  · simp only [Batch.reply, h.waiting, List.filter_filter]
    apply List.filter_congr
    intro f _
    have hstep : (f.after (first ++ (rest ++ [a]))).isKnown =
        ((f.after (first ++ rest)).isKnown || decide (f.ticket = a.1)) := by
      rw [Bool.eq_iff_iff, ← List.append_assoc, f.after_append (first ++ rest) [a],
        Flight.isKnown_after, (f.after_frame _).2]
      simp
    rw [hstep, Bool.not_or, Bool.and_comm, decide_not]
  · have hsplit : outcomes flights first (rest ++ [a]) =
        outcomes flights first rest ++ (completion? flights a).toList := by
      cases hc : completion? flights a <;> simp [outcomes, hc]
    simp only [Batch.reply, hready, hcalled, List.filterMap_append, houtcome, hsplit,
      List.findSome?_append, ← h.failure]
    simp [Option.or_assoc]

theorem Underway.replies (h : b.Underway flights first rest) (arrivals : List Arrival)
    (ha : Answers flights (first ++ rest ++ arrivals)) :
    (b.replies arrivals).Underway flights first (rest ++ arrivals) := by
  induction arrivals generalizing b rest with
  | nil => rwa [List.append_nil]
  | cons a arrivals ih =>
    rw [List.append_cons] at ha ⊢
    rw [List.append_assoc first] at ha
    exact ih (h.reply (by rw [List.append_assoc]; exact ha.left)) ha

/-- Once all that is known has been seen, a batch is what its outcomes make of it. -/
theorem Underway.state (h : b.Underway flights first rest)
    (ha : Answers flights (first ++ rest)) :
    b.settled.state = verdict flights.length (outcomes flights first rest) := by
  have hwaiting : b.settled.waiting = b.waiting := by
    have hnone : b.ready.filter (!·.isKnown) = [] := by
      apply List.filter_eq_nil_iff.mpr
      intro f hf
      simp [h.known f hf]
    simp only [settled, hnone, List.append_nil]
  have hall : b.waiting = [] ↔ (outcomes flights first rest).length = flights.length := by
    rw [(outcomes_perm ha).length_eq, length_filterMap_eq, h.waiting, List.filter_eq_nil_iff]
    apply forall₂_congr
    intro f _
    simp [Flight.isKnown, Option.isSome_iff_ne_none]
  have hstate : b.settled.state = match b.settled.failure with
      | some first => .done (.error (.batch b.size first))
      | none => if b.settled.waiting = [] then .done (.ok ()) else .pending := by
    simp only [Batch.state]
    cases hf : b.settled.failure with
    | some first => rfl
    | none => simp [settled, h.isDropped, List.isEmpty_iff]
  have hfailure : b.settled.failure = (outcomes flights first rest).findSome? failureIn? :=
    h.failure
  rw [hstate, hfailure, hwaiting, h.size, verdict]
  simp only [hall]

end Underway

section Done

variable {outcome : Except Failure Unit}

theorem state_of_failure (b : Batch) {first : Failure} (h : b.failure = some first) :
    b.state = .done (.error (.batch b.size first)) := by
  simp only [state, h]

theorem failure_of_state {failure : Failure} (h : b.state = .done (.error failure)) :
    ∃ first, b.failure = some first ∧ failure = .batch b.size first := by
  cases hfirst : b.failure with
  | some first =>
    rw [b.state_of_failure hfirst] at h
    cases h
    exact ⟨first, rfl, rfl⟩
  | none =>
    simp only [state, hfirst] at h
    repeat' split at h
    all_goals cases h

theorem done_cases (h : b.state = .done outcome) :
    (∃ first, b.failure = some first ∧ outcome = .error (.batch b.size first)) ∨
      b.ready = [] ∧ b.waiting = [] := by
  cases hfailure : b.failure with
  | some first =>
    rw [b.state_of_failure hfailure] at h
    cases h
    exact .inl ⟨first, rfl, rfl⟩
  | none =>
    simp only [state, hfailure] at h
    split at h
    · cases h
    · split at h
      · rename_i hempty
        exact .inr (by simpa using hempty)
      · cases h

theorem replies_frame (b : Batch) (arrivals : List Arrival) :
    (b.replies arrivals).failure = b.failure ∧ (b.replies arrivals).size = b.size := by
  induction arrivals generalizing b with
  | nil => exact ⟨rfl, rfl⟩
  | cons a arrivals ih => exact ih (b.reply a.1 a.2)

theorem watch_frame {first : Failure} (h : b.failure = some first) :
    b.watch.failure = some first ∧ b.watch.size = b.size := by
  simp only [watch]
  split
  · exact ⟨h, rfl⟩
  · rename_i hlook
    obtain ⟨rest, -, -, ⟨-, rfl⟩ | ⟨failure, -, rfl⟩⟩ := look?_eq_some hlook
    · exact ⟨h, rfl⟩
    · exact ⟨by simp [scan, h], rfl⟩

theorem done_replies (h : b.state = .done outcome) (arrivals : List Arrival) :
    (b.replies arrivals).state = .done outcome := by
  obtain ⟨first, hfirst, rfl⟩ | ⟨hready, hwaiting⟩ := done_cases h
  · obtain ⟨hfailure, hsize⟩ := b.replies_frame arrivals
    rw [state_of_failure _ (hfailure.trans hfirst), hsize]
  · rw [replies_of_waiting hwaiting, ← h, hready, List.map_nil, ← hready]

theorem done_watch (h : b.state = .done outcome) : b.watch.state = .done outcome := by
  obtain ⟨first, hfirst, rfl⟩ | ⟨hready, -⟩ := done_cases h
  · obtain ⟨hfailure, hsize⟩ := watch_frame hfirst
    rw [state_of_failure _ hfailure, hsize]
  · rwa [watch_nil hready]

theorem done_advance (h : b.state = .done outcome) (place : Nat) :
    (b.advance place).state = .done outcome := by
  obtain ⟨first, hfirst, rfl⟩ | ⟨hready, -⟩ := done_cases h
  · exact state_of_failure (b.advance place) hfirst
  · have hsame : b.advance place = b := by
      obtain ⟨worker, size, ready, waiting, failure, isDropped⟩ := b
      simp only at hready
      subst hready
      simp [advance]
    rwa [hsame]

end Done

end Batch

end TraceIndex
