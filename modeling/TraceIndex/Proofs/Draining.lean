import TraceIndex.Proofs.Touches

namespace TraceIndex

namespace Flight

variable {f : Flight}

instance (f : Flight) : Decidable f.HasFailed :=
  decidable_of_iff ((f.outcome?.bind failureIn?).isSome) (by
    rw [HasFailed]
    cases f.outcome? with
    | none => simp
    | some outcome => cases outcome <;> simp [failureIn?])

theorem not_hasFailed (h : f.isKnown) : ¬ f.HasFailed ↔ f.outcome? = some (.ok ()) := by
  obtain ⟨outcome, houtcome⟩ := Option.isSome_iff_exists.mp h
  rw [HasFailed, houtcome]
  cases outcome <;> simp

theorem after_perm {arrivals other : List Arrival} (h : arrivals.Perm other)
    (hnodup : (arrivals.map (·.1)).Nodup) (f : Flight) : f.after arrivals = f.after other := by
  apply h.foldl_eq'
  intro a ha b hb g
  by_cases hab : a.1 = b.1
  · rw [List.inj_on_of_nodup_map hnodup ha hb hab]
  · by_cases hga : g.ticket = a.1
    · have hgb : g.ticket ≠ b.1 := fun heq => hab (hga.symm.trans heq)
      simp [Batch.answer, hga, hab]
    · by_cases hgb : g.ticket = b.1
      · simp [Batch.answer, hgb, Ne.symm hab]
      · simp [Batch.answer, hga, hgb]

end Flight

namespace Batch

variable {b : Batch} {f : Flight} {flights : List Flight} {past more arrivals : List Arrival}

theorem mem_replies (hf : f ∈ b.outstanding) (arrivals : List Arrival) :
    f.after arrivals ∈ (b.replies arrivals).outstanding := by
  induction arrivals generalizing b f with
  | nil => exact hf
  | cons a arrivals ih => exact ih ((mem_reply a.1 a.2 _).mpr ⟨f, hf, rfl⟩)

theorem Answers.after_known (h : Answers flights (past ++ more)) (hf : f ∈ flights)
    (hknown : (f.after past).isKnown) : f.after (past ++ more) = f.after past := by
  have hnew : f.ticket ∉ more.map (·.1) := by
    intro hmem
    obtain hbefore | hticket := Flight.isKnown_after.mp hknown
    · have hnone := h.unknown f hf (by rw [List.map_append]; exact List.mem_append_right _ hmem)
      rw [Flight.isKnown, hnone] at hbefore
      cases hbefore
    · have honce := h.once
      rw [List.map_append, List.nodup_append] at honce
      exact honce.2.2 _ hticket _ hmem rfl
  rw [f.after_append]
  exact Flight.after_of_notMem (by rwa [(f.after_frame past).2])

theorem isDropped_watch (b : Batch) : b.watch.isDropped = b.isDropped := by
  obtain ⟨-, hwatch⟩ | ⟨f, rest, outcome, -, -, -, hwatch⟩ := b.watch_cases
  · rw [hwatch]
    rfl
  · rw [hwatch]
    rfl

theorem empty_stable : Stable fun b => b.outstanding = [] where
  reply b ticket r h := by
    have hnone : (b.replies [(ticket, r)]).outstanding = [] := outstanding_replies h
    exact hnone
  watch b h := by
    obtain ⟨keys, htended⟩ := b.tended_watch
    exact (htended.nil h).1
  advance b place h := by
    have htended : b.Tended (b.advance place) [] := .of_mem rfl (mem_advance place) id
    exact (htended.nil h).1
  drop _ _ := rfl
  forget _ _ _ := rfl

theorem dropped_stable : Stable fun b => b.isDropped → b.outstanding = [] where
  reply b ticket r h hdropped := empty_stable.reply b ticket r (h hdropped)
  watch b h hdropped := empty_stable.watch b (h (b.isDropped_watch ▸ hdropped))
  advance b place h hdropped := empty_stable.advance b place (h hdropped)
  drop _ _ _ := rfl
  forget _ _ _ _ := rfl

theorem outstanding_of_done (hpending : ¬ b.isPending) (hfailure : b.failure = none)
    (hdropped : b.isDropped → b.outstanding = []) : b.outstanding = [] := by
  by_cases hdrop : b.isDropped
  · exact hdropped hdrop
  · by_contra hleft
    have hsome : ¬ (b.ready = [] ∧ b.waiting = []) := fun h =>
      hleft (List.append_eq_nil_iff.mpr h)
    refine hpending ?_
    simp [isPending, state, hfailure, hdrop, hsome]

end Batch

/-- An action that leaves a worker to one batch and to its window: it gives the batch attention if it
concerns it, and neither does the worker accept anything nor does another window come. -/
structure Action.Calm (worker i length : Nat) (since : Clock) (a : Action) : Prop where
  attends : a.Attends i
  quiet : ∀ spans, a ≠ .accept worker spans
  window : ∀ now, a = .setClock now → Marks.windowAt length now = Marks.windowAt length since

namespace Service

variable {s u : Service} {worker i : Nat} {a : Action}

/-- Within one window, the marks of a worker are those that it had but for keys given back. -/
structure Unmarked (walked : Marks) (since : Clock) (worker : Nat) (keys : List String)
    (t : Service) : Prop where
  window : Marks.windowAt walked.length t.clock = Marks.windowAt walked.length since
  marks : ∃ m, t.workers[worker]? = some m ∧ m.length = walked.length ∧
    ∀ key, m.InForce t.clock key ↔ walked.InForce since key ∧ key ∉ keys

variable {walked : Marks} {since : Clock} {keys : List String} {actions : List Action}

theorem unmarked_act (h : s.Unmarked walked since worker keys) (hsole : s.Sole worker i)
    (ha : a.Calm worker i walked.length since) :
    (s.act a).Unmarked walked since worker (keys ++ (s.sight i a).flatMap Flight.givenBack) := by
  obtain ⟨m, hm, hlength, hforce⟩ := h.marks
  have hsince : Marks.windowAt walked.length (s.act a).clock =
      Marks.windowAt walked.length since := by
    obtain hclock | ⟨now, hnow, hclock⟩ := clock_act s a
    · rw [hclock]
      exact h.window
    · rw [hclock]
      exact ha.window now hnow
  -- Within the window it makes no difference at which time the marks are looked at.
  have hcongr : ∀ m' : Marks, m'.length = walked.length → ∀ key,
      m'.InForce (s.act a).clock key ↔ m'.InForce s.clock key := by
    intro m' hlength'
    apply Marks.inForce_congr
    rw [hlength', hsince, h.window]
  refine ⟨hsince, ?_⟩
  by_cases hi : a.batch? = some i
  · obtain ⟨b, hb, hw⟩ := hsole.owner
    have hgiven : (s.act a).workers[worker]? =
        some (((s.sight i a).flatMap Flight.givenBack).foldl Marks.revert m) := by
      obtain rfl | ⟨place, rfl⟩ := ha.attends hi
      · rw [sight_observe hb, act, workers_observe hb, hw]
        simp only [revert, List.getElem?_modify_eq, hm]
        rfl
      · have hsame : (s.act (.advance i place)).workers = s.workers := by
          simp only [act, Service.advance, hb, setBatch]
        rw [hsame]
        exact hm
    refine ⟨_, hgiven, (Marks.length_reverts _ _).trans hlength, fun key => ?_⟩
    rw [hcongr _ ((Marks.length_reverts _ _).trans hlength), Marks.inForce_reverts, hforce,
      List.mem_append, not_or, and_assoc]
  · rw [sight_of_ne hi, List.flatMap_nil, List.append_nil]
    obtain hsame | hlooked := marks_act hsole hi ha.quiet hm
    · exact ⟨m, hsame, hlength, fun key => (hcongr m hlength key).trans (hforce key)⟩
    · refine ⟨_, hlooked, hlength, fun key => ?_⟩
      rw [hcongr (m.refresh s.clock) hlength, Marks.inForce_refresh, hforce]

theorem unmarked_run (h : s.Unmarked walked since worker keys) (hsole : s.Sole worker i)
    (calm : ∀ a ∈ actions, a.Calm worker i walked.length since) :
    (s.run actions).Unmarked walked since worker
      (keys ++ (s.sights i actions).flatMap Flight.givenBack) := by
  induction actions generalizing s keys with
  | nil => rwa [sights, List.flatMap_nil, List.append_nil]
  | cons a rest ih =>
    obtain ⟨ha, hrest⟩ := List.forall_mem_cons.mp calm
    rw [sights, List.flatMap_append, ← List.append_assoc]
    exact ih (unmarked_act h hsole ha) (hsole.act ha.quiet) hrest

/-- The failures that are counted since a time at which a batch had seen nothing, if no other batch
is looked at. -/
structure Counted (u : Service) (i : Nat) (seen : List Flight) (t : Service) : Prop where
  writesFailed : t.metrics.writesFailed =
    u.metrics.writesFailed + seen.countP (·.storeFailure?.isSome)
  batchesFailed : ∃ b, t.batches[i]? = some b ∧
    t.metrics.batchesFailed = u.metrics.batchesFailed + if b.failure.isSome then 1 else 0

theorem counted_act {seen : List Flight} (h : Counted u i seen s) (hattends : a.Attends i)
    (honly : ∀ j, a.batch? = some j → j = i) :
    Counted u i (seen ++ s.sight i a) (s.act a) := by
  obtain ⟨b, hb, hbatches⟩ := h.batchesFailed
  by_cases hi : a.batch? = some i
  · obtain rfl | ⟨place, rfl⟩ := hattends hi
    · have hmetrics := metrics_observe hb
      rw [sight_observe hb]
      refine ⟨?_, b.watch, getElem?_observe hb, ?_⟩
      · rw [act, hmetrics, List.countP_append, ← Nat.add_assoc, ← h.writesFailed]
      · rw [act, hmetrics, ← Batch.failsBy_watch, ← Nat.add_assoc, ← hbatches]
    · have hact : s.act (.advance i place) = s.setBatch i (b.advance place) := by
        simp only [act, Service.advance, hb]
      have hsight : s.sight i (.advance i place) = [] := rfl
      rw [hact, hsight, List.append_nil]
      exact ⟨h.writesFailed, b.advance place,
        getElem?_set_of_some hb _, hbatches⟩
  · have hnone : a.batch? = none := by
      cases hj : a.batch? with
      | none => rfl
      | some j => exact absurd (honly j hj ▸ hj) hi
    obtain ⟨hwrites, hcount⟩ := failed_act (s := s) hnone
    rw [sight_of_ne hi, List.append_nil]
    refine ⟨hwrites.trans h.writesFailed, _, getElem?_act hi hb, ?_⟩
    rw [hcount, (b.replies_frame _).1]
    exact hbatches

theorem counted_run {seen : List Flight} (h : Counted u i seen s)
    (attended : ∀ a ∈ actions, a.Attends i)
    (only : ∀ a ∈ actions, ∀ j, a.batch? = some j → j = i) :
    Counted u i (seen ++ s.sights i actions) (s.run actions) := by
  induction actions generalizing s seen with
  | nil => rwa [sights, List.append_nil]
  | cons a rest ih =>
    obtain ⟨hattends, hrest⟩ := List.forall_mem_cons.mp attended
    obtain ⟨honly, honlyRest⟩ := List.forall_mem_cons.mp only
    rw [sights, ← List.append_assoc]
    exact ih (counted_act h hattends honly) hrest honlyRest

def Marked (s : Service) (worker : Nat) (key : String) : Prop :=
  ∃ m, s.workers[worker]? = some m ∧ m.InForce s.clock key

theorem Unmarked.marked_iff (h : s.Unmarked walked since worker keys) (key : String) :
    s.Marked worker key ↔ walked.InForce since key ∧ key ∉ keys := by
  obtain ⟨m, hm, -, hforce⟩ := h.marks
  rw [← hforce]
  constructor
  · rintro ⟨m', hm', hkey⟩
    rwa [Option.some.inj (hm.symm.trans hm')]
  · exact fun hkey => ⟨m, hm, hkey⟩

variable {marks : Marks} {spans : List Span} {later other : List Action}

/-- A run that drains the batch of spans that a worker accepts: the batch is attended to and all its
writes are answered, while the worker accepts nothing more and its marks stay in their window. -/
structure Drains (s : Service) (worker : Nat) (marks : Marks) (spans : List Span)
    (later : List Action) : Prop where
  calm : ∀ a ∈ later, a.Calm worker s.batches.length marks.length s.clock
  answered : ∀ f ∈ s.flights s.issued (s.started marks spans),
    (f.after ((s.accept worker spans).arrivals later)).isKnown

/-- The marks that are left once a batch is drained, given its writes as they were answered. -/
structure Drained (s : Service) (worker : Nat) (marks : Marks) (answered : List Flight)
    (final : Service) : Prop where
  seen : ∃ b, final.batches[s.batches.length]? = some b ∧ b.outstanding = []
  attempted : ∀ f ∈ answered, ∀ key, f.attempt.mark = some key →
    (final.Marked worker key ↔ f.outcome? = some (.ok ()))
  others : ∀ key, (∀ f ∈ answered, f.attempt.mark ≠ some key) →
    (final.Marked worker key ↔ marks.InForce s.clock key)

/-- How the writes of a batch were answered tells which keys are marked once it is drained. -/
theorem Drained.marked_iff {answered : List Flight} {final final' : Service}
    (h : s.Drained worker marks answered final) (h' : s.Drained worker marks answered final')
    (key : String) : final.Marked worker key ↔ final'.Marked worker key := by
  by_cases hkey : ∃ f ∈ answered, f.attempt.mark = some key
  · obtain ⟨f, hf, hmark⟩ := hkey
    exact (h.attempted f hf key hmark).trans (h'.attempted f hf key hmark).symm
  · have hfree : ∀ f ∈ answered, f.attempt.mark ≠ some key :=
      fun f hf hmark => hkey ⟨f, hf, hmark⟩
    exact (h.others key hfree).trans (h'.others key hfree).symm

structure Tallied (s : Service) (answered : List Flight) (final : Service) : Prop where
  writesFailed : final.metrics.writesFailed =
    s.metrics.writesFailed + answered.countP (·.storeFailure?.isSome)
  batchesFailed : final.metrics.batchesFailed =
    s.metrics.batchesFailed + if ∃ f ∈ answered, f.HasFailed then 1 else 0

theorem walk_length (s : Service) (marks : Marks) (spans : List Span) :
    (s.walk marks spans).2.marks.length = marks.length :=
  Desk.attempts_length s.writer s.clock (entriesOf spans) ⟨marks, s.buckets⟩

theorem inForce_walk (s : Service) (marks : Marks) (spans : List Span) (key : String) :
    (s.walk marks spans).2.marks.InForce s.clock key ↔
      marks.InForce s.clock key ∨ ∃ a ∈ s.started marks spans, a.mark = some key := by
  have hwalk := Desk.inForce_attempts s.writer s.clock (entriesOf spans) ⟨marks, s.buckets⟩ key
  refine hwalk.trans ⟨?_, ?_⟩
  · rintro (hforce | ⟨e, he, hkey⟩)
    · exact .inl hforce
    · exact Desk.inForce_or_attempted ⟨marks, s.buckets⟩ s.writer s.clock he hkey
  · rintro (hforce | ⟨a, ha, hkey⟩)
    · exact .inl hforce
    · obtain ⟨e, he, drawn, rfl⟩ := mem_started ha
      exact .inr ⟨e, he, hkey⟩

theorem unmarked_accept (h : s.workers[worker]? = some marks) (spans : List Span) :
    (s.accept worker spans).Unmarked (s.walk marks spans).2.marks s.clock worker [] := by
  have hclock : (s.accept worker spans).clock = s.clock := by
    rw [accept_eq h]
    rfl
  refine ⟨by rw [hclock], _, marks_accept h spans, rfl, fun key => ?_⟩
  rw [hclock]
  exact (and_iff_left List.not_mem_nil).symm

theorem attempts_after (s : Service) (marks : Marks) (spans : List Span) (arrivals : List Arrival) :
    ((s.flights s.issued (s.started marks spans)).map (·.after arrivals)).map (·.attempt) =
      s.started marks spans := by
  conv_rhs => rw [← s.flights_attempts s.issued (s.started marks spans)]
  rw [List.map_map]
  exact List.map_congr_left fun f _ => (f.after_frame arrivals).1

theorem Drains.attended (h : s.Drains worker marks spans later) :
    ∀ a ∈ later, a.Attends s.batches.length := fun a ha => (h.calm a ha).attends

theorem calm_thenSettle (s : Service) {length : Nat}
    (h : ∀ a ∈ actions, a.Calm worker i length since) :
    ∀ a ∈ s.thenSettle actions i, a.Calm worker i length since := by
  intro a ha
  obtain ha | rfl := mem_thenSettle ha
  · exact h a ha
  · exact ⟨fun _ => .inl rfl, nofun, nofun⟩

theorem mem_seen_givenBack {seen answered : List Flight} (h : seen.Perm answered) (key : String) :
    key ∈ seen.flatMap Flight.givenBack ↔
      ∃ f ∈ answered, f.HasFailed ∧ f.attempt.mark = some key := by
  simp only [List.mem_flatMap, Flight.mem_givenBack, h.mem_iff]

/-- Of the keys that a walk leaves in force, those of failed writes are given back. -/
theorem marked_of_drains (h : s.workers[worker]? = some marks) (hs : s.Ticketed)
    (idle : s.Idle worker) (hdrains : s.Drains worker marks spans later) (key : String) :
    let accepted := s.accept worker spans
    let answered := (s.flights s.issued (s.started marks spans)).map
      (·.after (accepted.arrivals later))
    ((accepted.run later).settle s.batches.length).Marked worker key ↔
      (marks.InForce s.clock key ∨ ∃ a ∈ s.started marks spans, a.mark = some key) ∧
        ¬ ∃ f ∈ answered, f.HasFailed ∧ f.attempt.mark = some key := by
  intro accepted answered
  obtain ⟨b, -, -, -, hperm⟩ := seen_accept h hs hdrains.attended hdrains.answered
  have hcalm : ∀ a ∈ later,
      a.Calm worker s.batches.length (s.walk marks spans).2.marks.length s.clock := by
    rw [walk_length]
    exact hdrains.calm
  have hunmarked := unmarked_run (unmarked_accept h spans) (sole_accept h idle)
    (accepted.calm_thenSettle hcalm)
  rw [run_thenSettle, List.nil_append] at hunmarked
  rw [hunmarked.marked_iff, inForce_walk, mem_seen_givenBack hperm]

theorem drained_of_drains (h : s.workers[worker]? = some marks) (hs : s.Ticketed)
    (idle : s.Idle worker) (hdrains : s.Drains worker marks spans later) :
    let accepted := s.accept worker spans
    s.Drained worker marks
      ((s.flights s.issued (s.started marks spans)).map (·.after (accepted.arrivals later)))
      ((accepted.run later).settle s.batches.length) := by
  intro accepted
  let flights := s.flights s.issued (s.started marks spans)
  let answered := flights.map (·.after (accepted.arrivals later))
  have hmarked : ∀ key, ((accepted.run later).settle s.batches.length).Marked worker key ↔
      (marks.InForce s.clock key ∨ ∃ a ∈ s.started marks spans, a.mark = some key) ∧
        ¬ ∃ f ∈ answered, f.HasFailed ∧ f.attempt.mark = some key :=
    marked_of_drains h hs idle hdrains
  have hattempts : answered.map (·.attempt) = s.started marks spans := s.attempts_after marks spans _
  obtain ⟨b, hb, -, hnone, -⟩ := seen_accept h hs hdrains.attended hdrains.answered
  refine ⟨⟨b, hb, hnone⟩, ?_, ?_⟩
  · intro f hf key hkey
    have hstarted : ∃ a ∈ s.started marks spans, a.mark = some key :=
      ⟨f.attempt, hattempts ▸ List.mem_map_of_mem hf, hkey⟩
    have hknown : f.isKnown := by
      obtain ⟨g, hg, rfl⟩ := List.mem_map.mp hf
      exact hdrains.answered g hg
    have hnodup : (answered.filterMap (·.attempt.mark)).Nodup := by
      have hmarks := s.started_marks_nodup marks spans
      rwa [← hattempts, List.filterMap_map] at hmarks
    rw [hmarked, and_iff_right (.inr hstarted), ← Flight.not_hasFailed hknown]
    constructor
    · exact fun hnot hfailed => hnot ⟨f, hf, hfailed, hkey⟩
    · -- No other write of the batch has the key.
      rintro hnot ⟨g, hg, hfailed, hgkey⟩
      rw [eq_of_filterMap_nodup hnodup hg hf hgkey hkey] at hfailed
      exact hnot hfailed
  · intro key hfree
    have hunstarted : ¬ ∃ a ∈ s.started marks spans, a.mark = some key := by
      rintro ⟨a, ha, hkey⟩
      rw [← hattempts] at ha
      obtain ⟨f, hf, rfl⟩ := List.mem_map.mp ha
      exact hfree f hf hkey
    have hkept : ¬ ∃ f ∈ answered, f.HasFailed ∧ f.attempt.mark = some key := by
      rintro ⟨f, hf, -, hkey⟩
      exact hfree f hf hkey
    rw [hmarked, or_iff_left hunstarted, and_iff_left hkept]

theorem tallied_of_drains (h : s.workers[worker]? = some marks) (hs : s.Ticketed)
    (hdrains : s.Drains worker marks spans later)
    (only : ∀ a ∈ later, ∀ j, a.batch? = some j → j = s.batches.length) :
    let accepted := s.accept worker spans
    s.Tallied
      ((s.flights s.issued (s.started marks spans)).map (·.after (accepted.arrivals later)))
      ((accepted.run later).settle s.batches.length) := by
  intro accepted
  let i := s.batches.length
  obtain ⟨b, hb, hpartway, -, hperm⟩ := seen_accept h hs hdrains.attended hdrains.answered
  obtain ⟨hwrites, hbatches⟩ := failed_accept h spans
  have hcounted : Counted accepted i [] accepted :=
    ⟨rfl, _, batch_accept h spans, rfl⟩
  have honly : ∀ a ∈ accepted.thenSettle later i, ∀ j, a.batch? = some j → j = i := by
    intro a ha j hj
    obtain ha | rfl := mem_thenSettle ha
    · exact only a ha j hj
    · exact (Option.some.inj hj).symm
  obtain ⟨hcount, c, hc, hfailed⟩ :=
    counted_run hcounted (attends_thenSettle hdrains.attended) honly
  rw [run_thenSettle] at hcount hc hfailed
  obtain rfl : b = c := Option.some.inj (hb.symm.trans hc)
  refine ⟨?_, ?_⟩
  · rw [hcount, hwrites, List.nil_append, hperm.countP_eq]
  · have hfailing := hpartway.failed_iff.trans
      (exists_congr fun f : Flight => and_congr_left fun _ => hperm.mem_iff)
    rw [hfailed, hbatches, if_congr hfailing rfl rfl]

theorem answered_perm (h : s.workers[worker]? = some marks) (hs : s.Ticketed)
    (hperm : ((s.accept worker spans).arrivals later).Perm
      ((s.accept worker spans).arrivals other)) (flights : List Flight) :
    flights.map (·.after ((s.accept worker spans).arrivals later)) =
      flights.map (·.after ((s.accept worker spans).arrivals other)) :=
  List.map_congr_left fun f _ =>
    f.after_perm hperm (spent_run (ticketed_accept h hs) later).2.nodup

section Alone

variable {b : Batch} {m : Marks} {f : Flight} {key : String} {flights : List Flight}
  {past : List Arrival} {events : List MarkEvent}

theorem outstanding_settleAlone (hb : s.batches[i]? = some b)
    (h : b.isDropped → b.outstanding = []) :
    ∃ b', (s.settleAlone i).batches[i]? = some b' ∧ b'.outstanding = [] := by
  obtain ⟨b₁, hb₁, h₁⟩ := Batch.dropped_stable.observeUntilFailure (s.readyCount i) hb h
  simp only [settleAlone, hb₁]
  split
  · split
    · rename_i hempty
      exact ⟨b₁, hb₁, List.isEmpty_iff.mp hempty⟩
    · exact ⟨b₁.forget, getElem?_set_of_some hb₁ _, rfl⟩
  · rename_i hfailure
    have hnone : b₁.failure = none := Option.not_isSome_iff_eq_none.mp hfailure
    simp only [drop, hb₁]
    split
    · exact ⟨_, getElem?_set_of_some hb₁ _, rfl⟩
    · rename_i hpending
      exact ⟨b₁, hb₁, Batch.outstanding_of_done hpending hnone h₁⟩

theorem outstanding_run (hb : s.batches[i]? = some b) (h : b.isDropped → b.outstanding = [])
    (hmem : .settleAlone i ∈ actions) :
    ∃ b', (s.run actions).batches[i]? = some b' ∧ b'.outstanding = [] := by
  obtain ⟨before, rest, rfl⟩ := List.append_of_mem hmem
  obtain ⟨b₁, hb₁, h₁⟩ := Batch.dropped_stable.run before hb h
  obtain ⟨b₂, hb₂, h₂⟩ := outstanding_settleAlone hb₁ h₁
  rw [run_append, run_cons]
  exact Batch.empty_stable.run rest hb₂ h₂

/-- The key of a write is live only while the write is outstanding, or if it was seen to succeed. -/
def Earned (worker i : Nat) (f : Flight) (key : String) (past : List Arrival)
    (events : List MarkEvent) (s : Service) : Prop :=
  ∃ b m, s.batches[i]? = some b ∧ b.worker = worker ∧ s.workers[worker]? = some m ∧
    (m.Live key → f.after past ∈ b.outstanding ∨
      (f.after past).outcome? = some (.ok ()) ∧ .kept ⟨worker, f.ticket, key⟩ ∈ events)

theorem earned_accept (h : s.workers[worker]? = some marks)
    (hf : f ∈ s.flights s.issued (s.started marks spans)) (key : String) :
    Earned worker s.batches.length f key [] [] (s.accept worker spans) :=
  ⟨_, _, batch_accept h spans, rfl, marks_accept h spans,
    fun _ => .inl (List.mem_append_left _ hf)⟩

theorem arrival_of_batch (h : a.batch? = some i) : s.arrival a = [] := by
  cases a with
  | hire | accept | resolve | look | setClock | setFaults | setOptions => cases h
  | advance | observe | drop | settleAlone => rfl

theorem earned_act (h : s.Earned worker i f key past events) (hsole : s.Sole worker i)
    (hquiet : ∀ spans, a ≠ .accept worker spans)
    (answers : Batch.Answers flights (past ++ s.arrival a)) (hf : f ∈ flights)
    (hkey : f.attempt.mark = some key) :
    (s.act a).Earned worker i f key (past ++ s.arrival a) (events ++ s.markEvents a) := by
  obtain ⟨b, m, hb, hw, hm, hearned⟩ := h
  obtain ⟨hattempt, hticket⟩ := f.after_frame past
  rw [← hattempt] at hkey
  by_cases hi : a.batch? = some i
  · obtain ⟨c, b', keys, notices, metrics, hc, htended, hshown, hact⟩ := touches_act hi hb
    obtain rfl : b = c := Option.some.inj (hb.symm.trans hc)
    rw [arrival_of_batch hi, List.append_nil]
    refine ⟨b', keys.foldl Marks.revert m, ?_, htended.worker.trans hw, ?_, fun hlive => ?_⟩
    · rw [hact]
      exact getElem?_set_of_some hb _
    · rw [hact]
      simp only [revert, hw, List.getElem?_modify_eq, hm]
      rfl
    · obtain ⟨hlive, hkeys⟩ := (Marks.live_reverts ..).mp hlive
      -- A write that is no longer outstanding and whose key is not given back was seen to succeed.
      obtain hleft | ⟨hok, hkept⟩ := hearned hlive
      · have hhold : (f.after past).hold? b.worker = some ⟨worker, f.ticket, key⟩ :=
          Batch.hold?_eq_some.mpr ⟨hkey, hw.symm, hticket.symm⟩
        obtain hleft' | hkept | hgiven := hshown.seen _ hleft
        · exact .inl hleft'
        · obtain hleft' | hok | ⟨-, hgiven⟩ := htended.seen _ hleft
          · exact .inl hleft'
          · exact .inr ⟨hok, List.mem_append_right _ (hkept _ hhold)⟩
          · exact absurd (hgiven key hkey) hkeys
        · exact absurd (hgiven key hkey) hkeys
      · exact .inr ⟨hok, List.mem_append_left _ hkept⟩
  · obtain ⟨m', hm', hback⟩ : ∃ m', (s.act a).workers[worker]? = some m' ∧
        (m'.Live key → m.Live key) := by
      obtain hsame | hlooked := marks_act hsole hi hquiet hm
      · exact ⟨m, hsame, id⟩
      · exact ⟨_, hlooked, fun hlive => ((Marks.live_refresh ..).mp hlive).live⟩
    refine ⟨_, m', getElem?_act hi hb, (b.worker_replies _).trans hw, hm', fun hlive => ?_⟩
    -- Replies that arrive leave the batch its writes, and a known outcome as it is.
    obtain hleft | ⟨hok, hkept⟩ := hearned (hback hlive)
    · rw [f.after_append]
      exact .inl (Batch.mem_replies hleft _)
    · have hknown : (f.after past).isKnown := by
        rw [Flight.isKnown, hok]
        rfl
      rw [answers.after_known hf hknown]
      exact .inr ⟨hok, List.mem_append_left _ hkept⟩

theorem earned_run (h : s.Earned worker i f key past events) (hsole : s.Sole worker i)
    (quiet : ∀ a ∈ actions, ∀ spans, a ≠ .accept worker spans)
    (answers : Batch.Answers flights (past ++ s.arrivals actions)) (hf : f ∈ flights)
    (hkey : f.attempt.mark = some key) :
    (s.run actions).Earned worker i f key (past ++ s.arrivals actions)
      (events ++ s.markHistory actions) := by
  induction actions generalizing s past events with
  | nil => rwa [arrivals, markHistory, List.append_nil, List.append_nil]
  | cons a rest ih =>
    obtain ⟨hquiet, hrest⟩ := List.forall_mem_cons.mp quiet
    rw [arrivals, ← List.append_assoc] at answers
    rw [arrivals, markHistory, ← List.append_assoc, ← List.append_assoc]
    exact ih (earned_act h hsole hquiet answers.left hf hkey) (hsole.act hquiet) hrest answers

/-- Once nothing of a batch is outstanding, a key of it that is still marked belongs to a write that
was seen to succeed. -/
theorem kept_of_marked (h : s.workers[worker]? = some marks) (hs : s.Ticketed)
    (idle : s.Idle worker) (quiet : ∀ a ∈ later, ∀ more, a ≠ .accept worker more)
    (hb : ((s.accept worker spans).run later).batches[s.batches.length]? = some b)
    (hnone : b.outstanding = []) (hf : f ∈ s.flights s.issued (s.started marks spans))
    (hkey : f.attempt.mark = some key)
    (hmarked : ((s.accept worker spans).run later).Marked worker key) :
    (f.after ((s.accept worker spans).arrivals later)).outcome? = some (.ok ()) ∧
      .kept ⟨worker, f.ticket, key⟩ ∈ (s.accept worker spans).markHistory later := by
  have hanswers : Batch.Answers (s.flights s.issued (s.started marks spans))
      ((s.accept worker spans).arrivals later) :=
    answers_accept h hs (spent_run (ticketed_accept h hs) later).2
  have hearned := earned_run (earned_accept h hf key) (sole_accept h idle) quiet
    (by rwa [List.nil_append]) hf hkey
  rw [List.nil_append, List.nil_append] at hearned
  obtain ⟨b', m, hb', -, hm, hlive⟩ := hearned
  obtain rfl : b = b' := Option.some.inj (hb.symm.trans hb')
  obtain ⟨m', hm', hforce⟩ := hmarked
  obtain rfl : m = m' := Option.some.inj (hm.symm.trans hm')
  refine (hlive hforce.live).resolve_left fun hleft => ?_
  rw [hnone] at hleft
  cases hleft

end Alone

/-- What a batch leaves behind, if its worker has no other write outstanding. Drained in its window,
it leaves marked those of its keys whose writes succeeded and no other key that was not marked
before, and it counts each write that the store failed, and itself if any write failed; a run that
answers the same in another order leaves the same. Where nothing of it is outstanding, as after it
was looked at once with nothing to look at it later, a key of it that is still marked belongs to a
write that was seen to succeed. -/
theorem drained_confluent (setup : Setup) (s₀ : Service) (earlier : List Action) (worker : Nat)
    (marks : Marks) (spans : List Span) (opened : setup.openService = .ok s₀)
    (hired : (s₀.run earlier).workers[worker]? = some marks)
    (idle : (s₀.run earlier).Idle worker) :
    let s := s₀.run earlier
    let i := s.batches.length
    let accepted := s.accept worker spans
    let flights := s.flights s.issued (s.started marks spans)
    let answered := fun later : List Action => flights.map (·.after (accepted.arrivals later))
    let final := fun later : List Action => (accepted.run later).settle i
    (∀ later, s.Drains worker marks spans later →
      s.Drained worker marks (answered later) (final later) ∧
      ((∀ a ∈ later, ∀ j, a.batch? = some j → j = i) →
        s.Tallied (answered later) (final later)) ∧
      ∀ other, (accepted.arrivals later).Perm (accepted.arrivals other) →
        answered later = answered other ∧
        (s.Drains worker marks spans other → ∀ key,
          ((final later).Marked worker key ↔ (final other).Marked worker key))) ∧
    ∀ later, (∀ a ∈ later, ∀ more, a ≠ .accept worker more) →
      (.settleAlone i ∈ later →
        ∃ b, (accepted.run later).batches[i]? = some b ∧ b.outstanding = []) ∧
      ∀ b, (accepted.run later).batches[i]? = some b → b.outstanding = [] →
        ∀ f ∈ flights, ∀ key, f.attempt.mark = some key → (accepted.run later).Marked worker key →
          (f.after (accepted.arrivals later)).outcome? = some (.ok ()) ∧
            .kept ⟨worker, f.ticket, key⟩ ∈ accepted.markHistory later := by
  intro s i accepted flights answered final
  have hs : s.Ticketed := ticketed_run opened earlier
  refine ⟨fun later hdrains => ⟨drained_of_drains hired hs idle hdrains,
    tallied_of_drains hired hs hdrains, fun other hperm => ?_⟩, fun later quiet => ⟨?_, ?_⟩⟩
  · have hanswered : answered later = answered other := answered_perm hired hs hperm flights
    refine ⟨hanswered, fun hdrains' key => ?_⟩
    have hdrained : s.Drained worker marks (answered other) (final later) :=
      hanswered ▸ drained_of_drains hired hs idle hdrains
    exact hdrained.marked_iff (drained_of_drains hired hs idle hdrains') key
  · exact outstanding_run (batch_accept hired spans) fun hdropped => nomatch hdropped
  · intro b hb hnone f hf key hkey hmarked
    exact kept_of_marked hired hs idle quiet hb hnone hf hkey hmarked

theorem drained_confluent_web :
    let setup := { Setup.zipkin with gate := [.serviceNames] }
    let gated := { zipkin with gate := [.serviceNames] }
    let s := gated.run [.hire]
    let marks := Marks.fresh gated.settings.dedupMillis gated.clock
    let spans : List Span := [.of "web" "get"]
    let later : List Action := [.setFaults [.onTable .serviceNames (.timeout "slow")], .observe 0,
      .observe 0, .resolve .released 1, .observe 0]
    let final := ((s.accept 0 spans).run later).settle 0
    setup.openService = .ok gated ∧ s.workers[0]? = some marks ∧ s.Idle 0 ∧
    s.Drains 0 marks spans later ∧ ¬ final.Marked 0 "web" ∧ final.metrics.writesFailed = 1 ∧
    final.metrics.batchesFailed = 1 ∧
    ∃ b, ((s.accept 0 spans).run [.settleAlone 0]).batches[0]? = some b ∧ b.outstanding = [] := by
  intro setup gated s marks spans later final
  have opened : setup.openService = .ok gated := by
    simp only [setup, gated, Setup.openService]
    rfl
  have hired : s.workers[0]? = some marks := rfl
  have idle : s.Idle 0 := fun b hb => absurd hb List.not_mem_nil
  have attended : ∀ a ∈ later, a.Attends 0 := by simp [later, Action.Attends, Action.batch?]
  have quiet : ∀ a ∈ later, ∀ more, a ≠ .accept 0 more := by simp [later]
  have window : ∀ a ∈ later, ∀ now, a ≠ .setClock now := by simp [later]
  have drains : s.Drains 0 marks spans later :=
    { calm := fun a ha => ⟨attended a ha, quiet a ha, fun now heq => absurd heq (window a ha now)⟩
      answered := by decide +kernel }
  have only : ∀ a ∈ later, ∀ j, a.batch? = some j → j = 0 := by simp [later, Action.batch?]
  obtain ⟨hdrained, halone⟩ := drained_confluent setup gated [.hire] 0 marks spans opened hired idle
  obtain ⟨hmarks, hcounts, -⟩ := hdrained later drains
  have htallied : s.Tallied _ final := hcounts only
  have failed : ∃ f ∈ (s.flights s.issued (s.started marks spans)).map
      (·.after ((s.accept 0 spans).arrivals later)),
      f.attempt.mark = some "web" ∧ f.outcome? ≠ some (.ok ()) := by
    decide +kernel
  refine ⟨opened, hired, idle, drains, ?_, ?_, ?_, (halone [.settleAlone 0] (by simp)).1 ?_⟩
  · obtain ⟨f, hf, hkey, houtcome⟩ := failed
    exact fun hmarked => houtcome ((hmarks.attempted f hf "web" hkey).mp hmarked)
  · apply htallied.writesFailed.trans
    decide +kernel
  · apply htallied.batchesFailed.trans
    decide +kernel
  · exact List.mem_singleton_self _

end Service

end TraceIndex
