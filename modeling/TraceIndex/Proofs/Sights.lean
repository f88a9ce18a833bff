import Mathlib.Data.List.TakeWhile
import TraceIndex.Proofs.Completions

namespace TraceIndex

def Flight.givenBack (f : Flight) : List String := (f.outcome?.map f.returned).getD []

theorem Flight.mem_givenBack {f : Flight} {key : String} :
    key ∈ f.givenBack ↔ f.HasFailed ∧ f.attempt.mark = some key := by
  rw [givenBack, HasFailed]
  cases f.outcome? with
  | none => simp
  | some outcome => cases outcome <;> simp [returned]

namespace Batch

variable {b : Batch} {flights seen lost : List Flight} {past : List Arrival} {a : Arrival}

def sight (b : Batch) : List Flight := (b.scan.look?.map (·.1)).toList

/-- The writes that so many looks see, none of them after the first failure. -/
def sightsToFailure : Nat → Batch → List Flight
  | 0, _ => []
  | n + 1, b => if b.failure.isSome then [] else b.sight ++ sightsToFailure n b.watch

theorem watch_cases (b : Batch) :
    (b.sight = [] ∧ b.watch = b.scan) ∨
      ∃ f rest outcome, b.scan.ready = f :: rest ∧ f.outcome? = some outcome ∧ b.sight = [f] ∧
        b.watch = { b.scan with ready := rest, failure := b.failure <|> failureIn? outcome } := by
  cases hlook : b.scan.look? with
  | none => exact .inl ⟨by rw [sight, hlook]; rfl, by rw [watch, hlook]⟩
  | some look =>
    obtain ⟨f, outcome, after⟩ := look
    obtain ⟨rest, hready, houtcome, hcase⟩ := look?_eq_some hlook
    refine .inr ⟨f, rest, outcome, hready, houtcome, by rw [sight, hlook]; rfl, ?_⟩
    rw [watch, hlook]
    obtain ⟨rfl, rfl⟩ | ⟨failure, rfl, rfl⟩ := hcase
    · simp [failureIn?, scan]
    · rfl

theorem scan_perm (b : Batch) : b.scan.outstanding.Perm b.outstanding := by
  let unknown := b.ready.takeWhile (!·.isKnown)
  let rest := b.ready.dropWhile (!·.isKnown)
  have hready : unknown ++ rest = b.ready := List.takeWhile_append_dropWhile
  calc
    List.Perm b.scan.outstanding (b.waiting ++ unknown ++ rest) := List.perm_append_comm
    List.Perm _ (b.waiting ++ b.ready) := by rw [List.append_assoc, hready]
    List.Perm _ b.outstanding := List.perm_append_comm

theorem advance_perm (b : Batch) (place : Nat) :
    (b.advance place).outstanding.Perm b.outstanding := by
  have hready : (b.ready[place]?.toList ++ b.ready.eraseIdx place).Perm b.ready := by
    cases h : b.ready[place]? with
    | none => simp [List.eraseIdx_of_length_le (List.getElem?_eq_none_iff.mp h)]
    | some f =>
      obtain ⟨hlt, rfl⟩ := List.getElem?_eq_some_iff.mp h
      exact List.getElem_cons_eraseIdx_perm hlt
  exact hready.append_right b.waiting

theorem reply_perm (b : Batch) (ticket : Nat) (r : Except StoreFailure Unit) :
    (b.reply ticket r).outstanding.Perm (b.outstanding.map (answer ticket r)) := by
  let called := b.waiting.filter (·.ticket = ticket)
  let others := b.waiting.filter (·.ticket ≠ ticket)
  have hothers : others.map (answer ticket r) = others :=
    map_answer_of_ne fun f hf => of_decide_eq_true (List.mem_filter.mp hf).2
  have hwaiting : (called ++ others).Perm b.waiting := by
    have hperm := List.filter_append_perm (fun f : Flight => decide (f.ticket = ticket)) b.waiting
    simpa only [called, others, decide_not, ne_eq] using hperm
  calc
    List.Perm (b.reply ticket r).outstanding
        (b.ready.map (answer ticket r) ++ (called ++ others).map (answer ticket r)) := by
      rw [List.map_append, hothers, ← List.append_assoc]
      rfl
    List.Perm _ (b.ready.map (answer ticket r) ++ b.waiting.map (answer ticket r)) :=
      (hwaiting.map _).append_left _
    List.Perm _ (b.outstanding.map (answer ticket r)) := .of_eq List.map_append.symm

/-- A batch that has seen some of its writes, in this order, when some replies have arrived. The others
are outstanding, or lost since the batch has given them up. -/
structure Sighted (b : Batch) (flights seen lost : List Flight) (past : List Arrival) : Prop where
  size : b.size = flights.length
  split : (seen ++ b.outstanding ++ lost).Perm (flights.map (·.after past))
  known : ∀ f ∈ seen, f.isKnown
  failure : b.failure = (seen.filterMap Flight.outcome?).findSome? failureIn?

theorem sighted_ofFlights (worker : Nat) (flights : List Flight) :
    (ofFlights worker flights).Sighted flights [] [] [] where
  size := rfl
  split := by simp [outstanding, ofFlights, Flight.after]
  known _ hf := absurd hf List.not_mem_nil
  failure := rfl

theorem Sighted.reorder (h : b.Sighted flights seen lost past) {b' : Batch}
    (hperm : b'.outstanding.Perm b.outstanding) (hsize : b'.size = b.size)
    (hfailure : b'.failure = b.failure) : b'.Sighted flights seen lost past :=
  ⟨hsize.trans h.size, ((hperm.append_left seen).append_right lost).trans h.split, h.known,
    hfailure.trans h.failure⟩

theorem Sighted.advance (h : b.Sighted flights seen lost past) (place : Nat) :
    (b.advance place).Sighted flights seen lost past :=
  h.reorder (b.advance_perm place) rfl rfl

theorem Sighted.scan (h : b.Sighted flights seen lost past) :
    b.scan.Sighted flights seen lost past :=
  h.reorder b.scan_perm rfl rfl

theorem Sighted.forget (h : b.Sighted flights seen lost past) {b' : Batch}
    (hsize : b'.size = b.size) (hfailure : b'.failure = b.failure) :
    b'.forget.Sighted flights seen (b.outstanding ++ lost) past := by
  refine ⟨hsize.trans h.size, ?_, h.known, hfailure.trans h.failure⟩
  have hnone : b'.forget.outstanding = [] := rfl
  rw [hnone, List.append_nil, ← List.append_assoc]
  exact h.split

theorem Sighted.watch (h : b.Sighted flights seen lost past) :
    b.watch.Sighted flights (seen ++ b.sight) lost past := by
  obtain ⟨hsight, hwatch⟩ | ⟨f, rest, outcome, hready, houtcome, hsight, hwatch⟩ := b.watch_cases
  · rw [hsight, hwatch, List.append_nil]
    exact h.scan
  · have hscan := h.scan.split
    rw [outstanding, hready] at hscan
    rw [hsight, hwatch]
    refine ⟨h.size, ?_, ?_, ?_⟩
    · rw [List.append_assoc seen]
      exact hscan
    · intro g hg
      obtain hg | hg := List.mem_append.mp hg
      · exact h.known g hg
      · obtain rfl := List.mem_singleton.mp hg
        rw [Flight.isKnown, houtcome]
        rfl
    · rw [List.filterMap_append, List.findSome?_append, ← h.failure]
      cases outcome <;> simp [houtcome, failureIn?]

theorem Sighted.reply (h : b.Sighted flights seen lost past)
    (ha : Answers flights (past ++ [a])) :
    (b.reply a.1 a.2).Sighted flights seen (lost.map (answer a.1 a.2)) (past ++ [a]) := by
  have hseen : seen.map (answer a.1 a.2) = seen := by
    conv_rhs => rw [← List.map_id seen]
    apply List.map_congr_left
    intro g hg
    obtain ⟨f, hf, rfl⟩ := List.mem_map.mp
      (h.split.mem_iff.mp (List.mem_append_left _ (List.mem_append_left _ hg)))
    -- A write that was seen is known, and what arrives is for a write that is not.
    refine if_neg fun hticket => ?_
    rw [(f.after_frame past).2] at hticket
    obtain ⟨hsame, hunknown, -⟩ := ha.next hf hticket
    have hknown := h.known _ hg
    rw [hsame, Flight.isKnown, hunknown] at hknown
    cases hknown
  have hafter : ∀ f : Flight, answer a.1 a.2 (f.after past) = f.after (past ++ [a]) :=
    fun f => (f.after_append past [a]).symm
  refine ⟨h.size, ?_, h.known, h.failure⟩
  calc
    List.Perm (seen ++ (b.reply a.1 a.2).outstanding ++ lost.map (answer a.1 a.2))
        (seen ++ b.outstanding.map (answer a.1 a.2) ++ lost.map (answer a.1 a.2)) :=
      ((b.reply_perm a.1 a.2).append_left seen).append_right _
    List.Perm _ ((seen ++ b.outstanding ++ lost).map (answer a.1 a.2)) := by
      rw [List.map_append, List.map_append, hseen]
    List.Perm _ ((flights.map (·.after past)).map (answer a.1 a.2)) := h.split.map _
    List.Perm _ (flights.map (·.after (past ++ [a]))) := by
      rw [List.map_map]
      exact .of_eq (List.map_congr_left fun f _ => hafter f)

theorem Sighted.replies (h : b.Sighted flights seen lost past) (arrivals : List Arrival)
    (ha : Answers flights (past ++ arrivals)) :
    (b.replies arrivals).Sighted flights seen (lost.map (·.after arrivals)) (past ++ arrivals) := by
  induction arrivals generalizing b lost past with
  | nil => simpa [Batch.replies, Flight.after] using h
  | cons a arrivals ih =>
    rw [List.append_cons] at ha ⊢
    have hrest := ih (h.reply ha.left) ha
    rwa [List.map_map] at hrest

/-- A batch that has failed has done so with the first failure that it has seen. -/
theorem Sighted.verdict (h : b.Sighted flights seen lost past) {failure : Failure}
    (hstate : b.state = .done (.error failure)) :
    Batch.verdict flights.length (seen.filterMap Flight.outcome?) = .done (.error failure) := by
  obtain ⟨first, hfirst, rfl⟩ := failure_of_state hstate
  rw [Batch.verdict, ← h.failure, hfirst, h.size]

theorem Sighted.failed_iff (h : b.Sighted flights seen lost past) :
    b.failure.isSome ↔ ∃ f ∈ seen, f.HasFailed := by
  rw [← Option.ne_none_iff_isSome, h.failure, Ne, findSome?_failureIn?_eq_none, not_forall]
  constructor
  · rintro ⟨outcome, hne⟩
    obtain ⟨houtcome, hbad⟩ := Classical.not_imp.mp hne
    obtain ⟨f, hf, hf'⟩ := List.mem_filterMap.mp houtcome
    cases outcome with
    | ok => exact absurd rfl hbad
    | error failure => exact ⟨f, hf, failure, hf'⟩
  · rintro ⟨f, hf, failure, hfailure⟩
    refine ⟨.error failure, fun hok => ?_⟩
    cases hok (List.mem_filterMap.mpr ⟨f, hf, hfailure⟩)

theorem Sighted.each_once (h : b.Sighted flights seen lost past)
    (distinct : (flights.map (·.ticket)).Nodup) :
    (seen.map (·.ticket)).Nodup ∧ ∀ f ∈ seen, f ∈ flights.map (·.after past) := by
  have htickets : (flights.map (·.after past)).map (·.ticket) = flights.map (·.ticket) := by
    rw [List.map_map]
    exact List.map_congr_left fun f _ => (f.after_frame past).2
  have hsub : seen.Sublist (seen ++ b.outstanding ++ lost) := by
    rw [List.append_assoc]
    exact List.sublist_append_left ..
  refine ⟨?_, fun f hf => h.split.mem_iff.mp (hsub.subset hf)⟩
  rw [← htickets] at distinct
  exact ((h.split.map _).nodup_iff.mpr distinct).sublist (hsub.map _)

/-- A batch that has given nothing up, and none of whose waiting writes has a reply. -/
structure Partway (b : Batch) (flights seen : List Flight) (past : List Arrival) : Prop
    extends b.Sighted flights seen [] past where
  isDropped : b.isDropped = false
  waiting : ∀ f ∈ b.waiting, ¬ f.isKnown

theorem partway_ofFlights (worker : Nat) (flights : List Flight) :
    (ofFlights worker flights).Partway flights [] [] where
  toSighted := sighted_ofFlights worker flights
  isDropped := rfl
  waiting _ hf := absurd hf List.not_mem_nil

theorem Partway.advance (h : b.Partway flights seen past) (place : Nat) :
    (b.advance place).Partway flights seen past :=
  ⟨h.toSighted.advance place, h.isDropped, h.waiting⟩

theorem Partway.watch (h : b.Partway flights seen past) :
    b.watch.Partway flights (seen ++ b.sight) past := by
  have hframe : b.watch.isDropped = b.isDropped ∧ b.watch.waiting = b.scan.waiting := by
    obtain ⟨-, hwatch⟩ | ⟨f, rest, outcome, -, -, -, hwatch⟩ := b.watch_cases
    all_goals
      rw [hwatch]
      exact ⟨rfl, rfl⟩
  refine ⟨h.toSighted.watch, hframe.1.trans h.isDropped, fun f hf => ?_⟩
  rw [hframe.2] at hf
  obtain hf | hf := List.mem_append.mp hf
  · exact h.waiting f hf
  · simpa using List.mem_takeWhile_imp hf

theorem Partway.replies (h : b.Partway flights seen past) (arrivals : List Arrival)
    (ha : Answers flights (past ++ arrivals)) :
    (b.replies arrivals).Partway flights seen (past ++ arrivals) := by
  induction arrivals generalizing b past with
  | nil => rwa [List.append_nil]
  | cons a arrivals ih =>
    rw [List.append_cons] at ha ⊢
    have hwaiting : ∀ f ∈ (b.reply a.1 a.2).waiting, ¬ f.isKnown := fun f hf =>
      h.waiting f (List.mem_filter.mp hf).1
    exact ih ⟨h.toSighted.reply ha.left, h.isDropped, hwaiting⟩ ha

theorem Partway.seen_all (h : b.Partway flights seen past) (hready : b.ready = [])
    (hknown : ∀ f ∈ flights, (f.after past).isKnown) :
    b.outstanding = [] ∧ seen.Perm (flights.map (·.after past)) := by
  have hwaiting : b.waiting = [] := by
    apply List.eq_nil_iff_forall_not_mem.mpr
    intro g hg
    have hmem : g ∈ seen ++ b.outstanding ++ [] :=
      List.mem_append_left _ (List.mem_append_right _ (List.mem_append_right _ hg))
    obtain ⟨f, hf, rfl⟩ := List.mem_map.mp (h.split.mem_iff.mp hmem)
    exact h.waiting _ hg (hknown f hf)
  have hnone : b.outstanding = [] := by rw [outstanding, hready, hwaiting, List.append_nil]
  have hsplit := h.split
  rw [hnone, List.append_nil, List.append_nil] at hsplit
  exact ⟨hnone, hsplit⟩

theorem Partway.state_ok (h : b.Partway flights seen past) (hnone : b.outstanding = []) :
    b.state = .done (.ok ()) ↔ ∀ f ∈ seen, ¬ f.HasFailed := by
  have hempty := List.append_eq_nil_iff.mp hnone
  have hsound : b.failure = none ↔ ∀ f ∈ seen, ¬ f.HasFailed := by
    rw [← Option.not_isSome_iff_eq_none, h.failed_iff]
    simp only [not_exists, not_and]
  rw [← hsound]
  cases hfirst : b.failure with
  | some first => simp [b.state_of_failure hfirst]
  | none => simp [state, hfirst, h.isDropped, hempty]

end Batch

/-- An action that gives a batch the attention it waits for, if it concerns the batch: it looks at
the batch or chooses what is looked at next, and does not give it up. -/
def Action.Attends (i : Nat) (a : Action) : Prop :=
  a.batch? = some i → a = .observe i ∨ ∃ place, a = .advance i place

namespace Service

variable {s : Service} {i : Nat} {b : Batch} {flights seen lost : List Flight} {past : List Arrival}

def sight (s : Service) (i : Nat) : Action → List Flight
  | .observe j => if j = i then (s.batches[i]?.map Batch.sight).getD [] else []
  | .settleAlone j =>
    if j = i then (s.batches[i]?.map fun b => b.sightsToFailure b.ready.length).getD [] else []
  | _ => []

def sights (s : Service) (i : Nat) : List Action → List Flight
  | [] => []
  | a :: rest => s.sight i a ++ (s.act a).sights i rest

theorem sight_of_ne {a : Action} (h : a.batch? ≠ some i) : s.sight i a = [] := by
  cases a with
  | observe j | settleAlone j => exact if_neg fun heq => h (congrArg some heq)
  | _ => rfl

theorem sight_observe (hb : s.batches[i]? = some b) : s.sight i (.observe i) = b.sight := by
  rw [sight, if_pos rfl, hb, Option.map_some, Option.getD_some]

theorem sight_settleAlone (hb : s.batches[i]? = some b) :
    s.sight i (.settleAlone i) = b.sightsToFailure b.ready.length := by
  rw [sight, if_pos rfl, hb, Option.map_some, Option.getD_some]

theorem sighted_observeUntilFailure (n : Nat) (hb : s.batches[i]? = some b)
    (h : b.Sighted flights seen lost past) :
    ∃ b', (observeUntilFailure i n s).batches[i]? = some b' ∧
      b'.Sighted flights (seen ++ b.sightsToFailure n) lost past := by
  induction n generalizing s b seen with
  | zero => exact ⟨b, hb, by rwa [Batch.sightsToFailure, List.append_nil]⟩
  | succ n ih =>
    have hfailed : s.hasFailed i = b.failure.isSome := by rw [hasFailed, hb, Option.bind_some]
    simp only [observeUntilFailure, Batch.sightsToFailure, hfailed]
    split
    · exact ⟨b, hb, by rwa [List.append_nil]⟩
    · rw [← List.append_assoc]
      exact ih (getElem?_observe hb) h.watch

theorem sighted_drop (hb : s.batches[i]? = some b) (h : b.Sighted flights seen lost past) :
    ∃ b' lost', (s.drop i).batches[i]? = some b' ∧ b'.Sighted flights seen lost' past := by
  simp only [drop, hb]
  split
  · exact ⟨_, _, getElem?_set_of_some hb _, h.forget rfl rfl⟩
  · exact ⟨b, lost, hb, h⟩

theorem sighted_settleAlone (hb : s.batches[i]? = some b) (h : b.Sighted flights seen lost past) :
    ∃ b' lost', (s.settleAlone i).batches[i]? = some b' ∧
      b'.Sighted flights (seen ++ b.sightsToFailure b.ready.length) lost' past := by
  have hcount : s.readyCount i = b.ready.length := by
    rw [readyCount, hb, Option.map_some, Option.getD_some]
  obtain ⟨b₁, hb₁, h₁⟩ := sighted_observeUntilFailure (s.readyCount i) hb h
  rw [hcount] at h₁
  simp only [settleAlone, hb₁]
  split
  · split
    · exact ⟨b₁, lost, hb₁, h₁⟩
    · exact ⟨_, _, getElem?_set_of_some hb₁ _, h₁.forget rfl rfl⟩
  · exact sighted_drop hb₁ h₁

/-- What an action sees of a batch is added to what was seen before, in its order. -/
theorem sighted_act (a : Action) (hb : s.batches[i]? = some b)
    (h : b.Sighted flights seen lost past)
    (answers : Batch.Answers flights (past ++ s.arrival a)) :
    ∃ b' lost', (s.act a).batches[i]? = some b' ∧
      b'.Sighted flights (seen ++ s.sight i a) lost' (past ++ s.arrival a) := by
  by_cases hi : a.batch? = some i
  · have hnone : s.arrival a = [] := by
      cases a with
      | resolve => cases hi
      | _ => rfl
    rw [hnone, List.append_nil]
    cases a with
    | hire | accept | resolve | look | setClock | setFaults | setOptions => cases hi
    | advance j place =>
      obtain rfl : j = i := Option.some.inj hi
      refine ⟨b.advance place, lost, ?_, ?_⟩
      · simp only [act, Service.advance, hb]
        exact getElem?_set_of_some hb _
      · exact (List.append_nil seen).symm ▸ h.advance place
    | observe j =>
      obtain rfl : j = i := Option.some.inj hi
      exact ⟨b.watch, lost, getElem?_observe hb, sight_observe hb ▸ h.watch⟩
    | drop j =>
      obtain rfl : j = i := Option.some.inj hi
      exact (List.append_nil seen).symm ▸ sighted_drop hb h
    | settleAlone j =>
      obtain rfl : j = i := Option.some.inj hi
      exact sight_settleAlone hb ▸ sighted_settleAlone hb h
  · rw [sight_of_ne hi, List.append_nil]
    exact ⟨_, _, getElem?_act hi hb, h.replies _ answers⟩

theorem sighted_run (actions : List Action) (hb : s.batches[i]? = some b)
    (h : b.Sighted flights seen lost past)
    (answers : Batch.Answers flights (past ++ s.arrivals actions)) :
    ∃ b' lost', (s.run actions).batches[i]? = some b' ∧
      b'.Sighted flights (seen ++ s.sights i actions) lost' (past ++ s.arrivals actions) := by
  induction actions generalizing s b seen lost past with
  | nil => exact ⟨b, lost, hb, by rwa [sights, arrivals, List.append_nil, List.append_nil]⟩
  | cons a rest ih =>
    rw [arrivals, ← List.append_assoc] at answers
    obtain ⟨b₁, lost₁, hb₁, h₁⟩ := sighted_act a hb h answers.left
    rw [sights, arrivals, ← List.append_assoc, ← List.append_assoc]
    exact ih hb₁ h₁ answers

theorem partway_act {a : Action} (ha : a.Attends i) (hb : s.batches[i]? = some b)
    (h : b.Partway flights seen past) (answers : Batch.Answers flights (past ++ s.arrival a)) :
    ∃ b', (s.act a).batches[i]? = some b' ∧
      b'.Partway flights (seen ++ s.sight i a) (past ++ s.arrival a) := by
  by_cases hi : a.batch? = some i
  · obtain rfl | ⟨place, rfl⟩ := ha hi
    · have hnone : s.arrival (.observe i) = [] := rfl
      refine ⟨b.watch, getElem?_observe hb, ?_⟩
      rw [sight_observe hb, hnone, List.append_nil]
      exact h.watch
    · refine ⟨b.advance place, ?_, ?_⟩
      · simp only [act, Service.advance, hb]
        exact getElem?_set_of_some hb _
      · have hnone : s.sight i (.advance i place) = [] ∧ s.arrival (.advance i place) = [] :=
          ⟨rfl, rfl⟩
        rw [hnone.1, hnone.2, List.append_nil, List.append_nil]
        exact h.advance place
  · rw [sight_of_ne hi, List.append_nil]
    exact ⟨_, getElem?_act hi hb, h.replies _ answers⟩

theorem partway_run {actions : List Action} (ha : ∀ a ∈ actions, a.Attends i)
    (hb : s.batches[i]? = some b) (h : b.Partway flights seen past)
    (answers : Batch.Answers flights (past ++ s.arrivals actions)) :
    ∃ b', (s.run actions).batches[i]? = some b' ∧
      b'.Partway flights (seen ++ s.sights i actions) (past ++ s.arrivals actions) := by
  induction actions generalizing s b seen past with
  | nil => exact ⟨b, hb, by rwa [sights, arrivals, List.append_nil, List.append_nil]⟩
  | cons a rest ih =>
    obtain ⟨hfirst, hrest⟩ := List.forall_mem_cons.mp ha
    rw [arrivals, ← List.append_assoc] at answers
    obtain ⟨b₁, hb₁, h₁⟩ := partway_act hfirst hb h answers.left
    rw [sights, arrivals, ← List.append_assoc, ← List.append_assoc]
    exact ih hrest hb₁ h₁ answers

def thenSettle (s : Service) (actions : List Action) (i : Nat) : List Action :=
  actions ++ List.replicate ((s.run actions).readyCount i) (.observe i)

theorem mem_thenSettle {actions : List Action} {a : Action} (h : a ∈ s.thenSettle actions i) :
    a ∈ actions ∨ a = .observe i :=
  (List.mem_append.mp h).imp_right List.eq_of_mem_replicate

theorem attends_thenSettle {actions : List Action} (h : ∀ a ∈ actions, a.Attends i) :
    ∀ a ∈ s.thenSettle actions i, a.Attends i := by
  intro a ha
  obtain ha | rfl := mem_thenSettle ha
  · exact h a ha
  · exact fun _ => .inl rfl

theorem run_observed (s : Service) (i n : Nat) :
    s.run (List.replicate n (.observe i)) = Nat.repeat (observe i) n s := by
  induction n generalizing s with
  | zero => rfl
  | succ n ih =>
    rw [repeat_succ]
    exact ih (s.observe i)

theorem run_thenSettle (s : Service) (actions : List Action) (i : Nat) :
    s.run (s.thenSettle actions i) = (s.run actions).settle i := by
  rw [thenSettle, run_append, run_observed]
  rfl

theorem arrivals_append (s : Service) (first rest : List Action) :
    s.arrivals (first ++ rest) = s.arrivals first ++ (s.run first).arrivals rest := by
  induction first generalizing s with
  | nil => rfl
  | cons a first ih => rw [List.cons_append, arrivals, arrivals, ih, List.append_assoc, run_cons]

theorem arrivals_thenSettle (s : Service) (actions : List Action) (i : Nat) :
    s.arrivals (s.thenSettle actions i) = s.arrivals actions := by
  have hnone : ∀ (n : Nat) (t : Service), t.arrivals (List.replicate n (.observe i)) = [] := by
    intro n
    induction n with
    | zero => exact fun _ => rfl
    | succ n ih => exact fun t => ih (t.observe i)
  rw [thenSettle, arrivals_append, hnone, List.append_nil]

variable {worker : Nat} {marks : Marks} {spans : List Span}

/-- An accepted batch that is attended to until all its writes are answered, and then settled, has
seen each of them once and has no other outstanding. -/
theorem seen_accept (h : s.workers[worker]? = some marks) (hs : s.Ticketed) {later : List Action}
    (attended : ∀ a ∈ later, a.Attends s.batches.length)
    (known : ∀ f ∈ s.flights s.issued (s.started marks spans),
      (f.after ((s.accept worker spans).arrivals later)).isKnown) :
    let accepted := s.accept worker spans
    let i := s.batches.length
    let flights := s.flights s.issued (s.started marks spans)
    let seen := accepted.sights i (accepted.thenSettle later i)
    ∃ b, ((accepted.run later).settle i).batches[i]? = some b ∧
      b.Partway flights seen (accepted.arrivals later) ∧ b.outstanding = [] ∧
      seen.Perm (flights.map (·.after (accepted.arrivals later))) := by
  intro accepted i flights seen
  have hanswers : Batch.Answers flights (accepted.arrivals (accepted.thenSettle later i)) :=
    answers_accept h hs (spent_run (ticketed_accept h hs) _).2
  obtain ⟨b, hb, hpartway⟩ := partway_run (attends_thenSettle attended) (batch_accept h spans)
    (Batch.partway_ofFlights worker flights) (by rwa [List.nil_append])
  rw [run_thenSettle] at hb
  rw [List.nil_append, List.nil_append, arrivals_thenSettle] at hpartway
  obtain ⟨c, hc, -⟩ := partway_run attended (batch_accept h spans)
    (Batch.partway_ofFlights worker flights) (by
      rw [arrivals_thenSettle] at hanswers
      rwa [List.nil_append])
  have hready : b.ready = [] := by
    rw [getElem?_settle hc] at hb
    rw [← Option.some.inj hb]
    rfl
  obtain ⟨hnone, hperm⟩ := hpartway.seen_all hready known
  exact ⟨b, hb, hpartway, hnone, hperm⟩

end Service

end TraceIndex
