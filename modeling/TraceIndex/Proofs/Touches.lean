import TraceIndex.Proofs.Passes
import TraceIndex.Proofs.Sights
import TraceIndex.Proofs.Skips

namespace TraceIndex

namespace Batch

variable {b b' b'' : Batch} {keys more : List String} {events later : List MarkEvent}

theorem Tended.trans (h : b.Tended b' keys) (h' : b'.Tended b'' more) :
    b.Tended b'' (keys ++ more) where
  worker := h'.worker.trans h.worker
  outstanding f hf := h.outstanding f (h'.outstanding f hf)
  seen f hf := by
    obtain hleft | hok | ⟨hspoilt, hkeys⟩ := h.seen f hf
    · obtain hleft | hok | ⟨hspoilt, hkeys⟩ := h'.seen f hleft
      · exact .inl hleft
      · exact .inr (.inl hok)
      · exact .inr (.inr ⟨hspoilt, fun key hkey => List.mem_append_right _ (hkeys key hkey)⟩)
    · exact .inr (.inl hok)
    · exact .inr (.inr ⟨h'.spoilt hspoilt, fun key hkey => List.mem_append_left _ (hkeys key hkey)⟩)
  spoilt hs := h'.spoilt (h.spoilt hs)
  returned key hkey := by
    obtain hkey | hkey := List.mem_append.mp hkey
    · obtain ⟨hspoilt, hf⟩ := h.returned key hkey
      exact ⟨h'.spoilt hspoilt, hf⟩
    · obtain ⟨hspoilt, f, hf, hmark⟩ := h'.returned key hkey
      exact ⟨hspoilt, f, h.outstanding f hf, hmark⟩

theorem Shown.trans (ht : b.Tended b' keys) (h : b.Shown b' keys events)
    (h' : b'.Shown b'' more later) : b.Shown b'' (keys ++ more) (events ++ later) where
  seen f hf := by
    obtain hleft | hkept | hkeys := h.seen f hf
    · obtain hleft | hkept | hkeys := h'.seen f hleft
      · exact .inl hleft
      · rw [ht.worker] at hkept
        exact .inr (.inl fun hold hhold => List.mem_append_right _ (hkept hold hhold))
      · exact .inr (.inr fun key hkey => List.mem_append_right _ (hkeys key hkey))
    · exact .inr (.inl fun hold hhold => List.mem_append_left _ (hkept hold hhold))
    · exact .inr (.inr fun key hkey => List.mem_append_left _ (hkeys key hkey))
  shifts e he worker key hshifts := by
    obtain he | he := List.mem_append.mp he
    · obtain ⟨hw, hkey⟩ := h.shifts e he worker key hshifts
      exact ⟨hw, List.mem_append_left _ hkey⟩
    · obtain ⟨hw, hkey⟩ := h'.shifts e he worker key hshifts
      exact ⟨ht.worker.symm.trans hw, List.mem_append_right _ hkey⟩
  kept hold hkept := by
    obtain hkept | hkept := List.mem_append.mp hkept
    · exact h.kept hold hkept
    · obtain ⟨f, hf, hf'⟩ := h'.kept hold hkept
      exact ⟨f, ht.outstanding f hf, hf'⟩

theorem Tended.nil (ht : b.Tended b' keys) (h : b.outstanding = []) :
    b'.outstanding = [] ∧ keys = [] := by
  constructor
  · apply List.eq_nil_iff_forall_not_mem.mpr
    intro f hf
    have hmem := ht.outstanding f hf
    rw [h] at hmem
    cases hmem
  · apply List.eq_nil_iff_forall_not_mem.mpr
    intro key hkey
    obtain ⟨-, f, hf, -⟩ := ht.returned key hkey
    rw [h] at hf
    cases hf

theorem outstanding_replies {arrivals : List Arrival} (h : b.outstanding = []) :
    (b.replies arrivals).outstanding = [] := by
  obtain ⟨hready, hwaiting⟩ := List.append_eq_nil_iff.mp h
  rw [replies_of_waiting hwaiting, outstanding, hready, hwaiting]
  rfl

theorem worker_replies (b : Batch) (arrivals : List Arrival) :
    (b.replies arrivals).worker = b.worker := by
  induction arrivals generalizing b with
  | nil => rfl
  | cons a arrivals ih => exact ih (b.reply a.1 a.2)

theorem failsBy_watch (b : Batch) :
    ((if b.failure.isSome then 1 else 0) + if b.failsBy b.watch then 1 else 0 : Nat) =
      if b.watch.failure.isSome then 1 else 0 := by
  cases hf : b.failure with
  | none => cases hw : b.watch.failure <;> simp [failsBy, hf, hw]
  | some first => simp [failsBy, hf, (watch_frame hf).1]

end Batch

theorem Marks.inForce_congr {m : Marks} {now other : Clock}
    (h : windowAt m.length now = windowAt m.length other) (key : String) :
    m.InForce now key ↔ m.InForce other key := by
  rw [inForce_iff, inForce_iff, h]

namespace Service

variable {s t u : Service} {i : Nat} {b : Batch} {events later : List MarkEvent}

/-- What looking at a batch, or giving it up, leads to, and what it does with marks. -/
def Touches (i : Nat) (events : List MarkEvent) (s t : Service) : Prop :=
  ∃ b b' keys notices metrics, s.batches[i]? = some b ∧ b.Tended b' keys ∧ b.Shown b' keys events ∧
    t = { s with
      notices, metrics
      workers := (s.revert b.worker keys).workers
      batches := s.batches.set i b' }

theorem touches_setBatch {b' : Batch} (hb : s.batches[i]? = some b) (hw : b'.worker = b.worker)
    (hm : ∀ f, f ∈ b'.outstanding ↔ f ∈ b.outstanding) (hs : b.Spoilt → b'.Spoilt) :
    Touches i [] s (s.setBatch i b') := by
  refine ⟨b, b', [], s.notices, s.metrics, hb, .of_mem hw hm hs, Batch.shown_of_mem hm, ?_⟩
  rw [revert_nil]
  rfl

theorem touches_notify (hb : s.batches[i]? = some b) (notices : List Notice) :
    Touches i [] s (s.notify notices) := by
  refine ⟨b, b, [], s.notices ++ notices, s.metrics, hb, .of_mem rfl (fun _ => .rfl) id,
    Batch.shown_of_mem fun _ => .rfl, ?_⟩
  obtain ⟨hlt, rfl⟩ := List.getElem?_eq_some_iff.mp hb
  rw [revert_nil, List.set_getElem_self]
  rfl

theorem touches_refl (hb : s.batches[i]? = some b) : Touches i [] s s := by
  have hsame := touches_setBatch hb rfl (fun _ => .rfl) id
  rwa [setBatch_self hb] at hsame

theorem Touches.batch (h : Touches i events s t) : ∃ b, t.batches[i]? = some b := by
  obtain ⟨b, b', _, _, _, hb, -, -, rfl⟩ := h
  exact ⟨b', getElem?_set_of_some hb _⟩

theorem Touches.trans (h : Touches i events s t) (h' : Touches i later t u) :
    Touches i (events ++ later) s u := by
  obtain ⟨b, b', keys, _, _, hb, ht, hs, rfl⟩ := h
  obtain ⟨c, c', more, notices, metrics, hc, ht', hs', rfl⟩ := h'
  obtain rfl : b' = c := Option.some.inj ((getElem?_set_of_some hb b').symm.trans hc)
  refine ⟨b, c', keys ++ more, notices, metrics, hb, ht.trans ht', hs.trans ht hs', ?_⟩
  simp only [revert, ht.worker, List.set_set, List.modify_modify_eq]
  congr 2
  funext m
  exact (List.foldl_append ..).symm

theorem touches_observe (hb : s.batches[i]? = some b) :
    Touches i (s.observeEvents i) s (s.observe i) := by
  cases hlook : b.scan.look? with
  | none =>
    have hscan : Touches i [] s (s.setBatch i b.scan) := touches_setBatch hb rfl Batch.mem_scan id
    simpa only [observe, observeEvents, Batch.lookEvents, hb, hlook] using hscan
  | some look =>
    obtain ⟨f, outcome, after⟩ := look
    obtain ⟨notices, metrics, hobserve⟩ := observe_of_look hb hlook
    simp only [observeEvents, Batch.lookEvents, hb, hlook]
    exact ⟨b, after, _, notices, metrics, hb, Batch.tended_look hlook, Batch.shown_look hlook,
      hobserve⟩

theorem touches_forget {b' : Batch} (hb : s.batches[i]? = some b) (hw : b'.worker = b.worker)
    (hm : b'.marks = b.marks) (hs : b'.Spoilt) : Touches i b.lossEvents s (s.forget i b') := by
  refine ⟨b, b'.forget, b.marks, s.notices, s.metrics, hb, Batch.tended_forget hw hs,
    b.shown_forget b'.forget, ?_⟩
  rw [forget, hw, hm]
  rfl

theorem touches_drop (hb : s.batches[i]? = some b) : Touches i (s.dropEvents i) s (s.drop i) := by
  simp only [drop, dropEvents, hb]
  split
  · exact touches_forget hb rfl rfl (.inr rfl)
  · exact touches_refl hb

theorem touches_observeUntilFailure (n : Nat) (hb : s.batches[i]? = some b) :
    Touches i (observeUntilFailureEvents i n s) s (observeUntilFailure i n s) := by
  induction n generalizing s b with
  | zero => exact touches_refl hb
  | succ n ih =>
    simp only [observeUntilFailure, observeUntilFailureEvents]
    split
    · exact touches_refl hb
    · exact (touches_observe hb).trans (ih (getElem?_observe hb))

theorem touches_settleAlone (hb : s.batches[i]? = some b) :
    Touches i (s.settleAloneEvents i) s (s.settleAlone i) := by
  have hlook := touches_observeUntilFailure (s.readyCount i) hb
  obtain ⟨b', hb'⟩ := hlook.batch
  apply hlook.trans
  simp only [leaveEvents, settleAlone, hb']
  split
  · rename_i hfailed
    split
    · rename_i hempty
      have hnone : b'.lossEvents = [] := by simp [Batch.lossEvents, List.isEmpty_iff.mp hempty]
      rw [hnone]
      exact touches_refl hb'
    · exact (touches_notify hb' _).trans (touches_forget hb' rfl rfl (.inl hfailed))
  · exact touches_drop hb'

theorem touches_act {a : Action} (ha : a.batch? = some i) (hb : s.batches[i]? = some b) :
    Touches i (s.markEvents a) s (s.act a) := by
  cases a with
  | hire | accept | resolve | look | setClock | setFaults | setOptions => cases ha
  | advance j place =>
    obtain rfl : j = i := Option.some.inj ha
    have hadvance : Touches j [] s (s.setBatch j (b.advance place)) :=
      touches_setBatch hb rfl (Batch.mem_advance place) id
    simpa only [act, markEvents, Service.advance, hb] using hadvance
  | observe j =>
    obtain rfl : j = i := Option.some.inj ha
    exact touches_observe hb
  | drop j =>
    obtain rfl : j = i := Option.some.inj ha
    exact touches_drop hb
  | settleAlone j =>
    obtain rfl : j = i := Option.some.inj ha
    exact touches_settleAlone hb

variable {worker : Nat} {marks m : Marks} {spans : List Span} {a : Action}

/-- All that a worker has outstanding is in one batch. -/
structure Sole (worker i : Nat) (s : Service) : Prop where
  owner : ∃ b, s.batches[i]? = some b ∧ b.worker = worker
  others : ∀ j b, j ≠ i → s.batches[j]? = some b → b.worker = worker → b.outstanding = []

/-- What becomes of a batch in any action. -/
theorem batch_act (a : Action) (hb : s.batches[i]? = some b) :
    ∃ b', (s.act a).batches[i]? = some b' ∧ b'.worker = b.worker ∧
      (b.outstanding = [] → b'.outstanding = []) := by
  by_cases ha : a.batch? = some i
  · obtain ⟨c, b', keys, notices, metrics, hc, ht, -, hact⟩ := touches_act ha hb
    obtain rfl : b = c := Option.some.inj (hb.symm.trans hc)
    refine ⟨b', ?_, ht.worker, fun h => (ht.nil h).1⟩
    rw [hact]
    exact getElem?_set_of_some hb _
  · exact ⟨_, getElem?_act ha hb, b.worker_replies _, Batch.outstanding_replies⟩

theorem act_of_none (ha : a.batch? = some i) (hi : s.batches[i]? = none) : s.act a = s := by
  cases a with
  | hire | accept | resolve | look | setClock | setFaults | setOptions => cases ha
  | advance j place =>
    obtain rfl : j = i := Option.some.inj ha
    simp only [act, Service.advance, hi]
  | observe j =>
    obtain rfl : j = i := Option.some.inj ha
    simp only [act, observe, hi]
  | drop j =>
    obtain rfl : j = i := Option.some.inj ha
    simp only [act, drop, hi]
  | settleAlone j =>
    obtain rfl : j = i := Option.some.inj ha
    have hcount : s.readyCount j = 0 := by simp [readyCount, hi]
    simp only [act, settleAlone, hcount, observeUntilFailure, hi]

theorem accept_of_new {b' : Batch} (hi : s.batches[i]? = none)
    (hb' : (s.act a).batches[i]? = some b') : ∃ spans, a = .accept b'.worker spans := by
  have hnew : ∀ {j : Nat}, a.batch? = some j → False := by
    intro j ha
    cases hj : s.batches[j]? with
    | none =>
      rw [act_of_none ha hj, hi] at hb'
      cases hb'
    | some b =>
      obtain ⟨c, c', keys, notices, metrics, -, -, -, hact⟩ := touches_act ha hj
      rw [hact, List.getElem?_set, hi] at hb'
      split at hb'
      · rename_i heq
        rw [heq, hi] at hj
        cases hj
      · cases hb'
  cases a with
  | advance | observe | drop | settleAlone => exact (hnew rfl).elim
  | hire | look | setClock | setFaults | setOptions =>
    have hsame : s.batches[i]? = some b' := hb'
    rw [hi] at hsame
    cases hsame
  | resolve fate ticket =>
    cases hh : s.heldUnder? ticket with
    | none =>
      rw [act, resolveUnder_of_none hh, hi] at hb'
      cases hb'
    | some held =>
      rw [act, resolveUnder_of_some hh] at hb'
      simp only [List.getElem?_map, hi] at hb'
      cases hb'
  | accept worker spans =>
    cases hw : s.workers[worker]? with
    | none =>
      rw [act, accept_of_none hw, hi] at hb'
      cases hb'
    | some marks =>
      rw [act, accept_batches hw, List.getElem?_append_right (List.getElem?_eq_none_iff.mp hi),
        List.getElem?_singleton] at hb'
      split at hb'
      · cases hb'
        exact ⟨spans, rfl⟩
      · cases hb'

theorem Sole.act (h : s.Sole worker i) (ha : ∀ spans, a ≠ .accept worker spans) :
    (s.act a).Sole worker i := by
  constructor
  · obtain ⟨b, hb, hw⟩ := h.owner
    obtain ⟨b', hb', hw', -⟩ := batch_act a hb
    exact ⟨b', hb', hw'.trans hw⟩
  · intro j b' hj hb' hw'
    cases hb : s.batches[j]? with
    | none =>
      obtain ⟨spans, rfl⟩ := accept_of_new hb hb'
      exact absurd (hw' ▸ rfl) (ha spans)
    | some b =>
      obtain ⟨c, hc, hw, hnil⟩ := batch_act a hb
      obtain rfl : b' = c := Option.some.inj (hb'.symm.trans hc)
      exact hnil (h.others j b hj hb (hw.symm.trans hw'))

theorem sole_accept (h : s.workers[worker]? = some marks) (idle : s.Idle worker) :
    (s.accept worker spans).Sole worker s.batches.length where
  owner := ⟨_, batch_accept h spans, rfl⟩
  others j b hj hb hw := by
    rw [accept_batches h, List.getElem?_append] at hb
    split at hb
    · exact idle b (List.mem_of_getElem? hb) hw
    · rename_i hlt
      rw [List.getElem?_singleton, if_neg (by omega)] at hb
      cases hb

theorem marks_act (h : s.Sole worker i) (ha : a.batch? ≠ some i)
    (hquiet : ∀ spans, a ≠ .accept worker spans) (hm : s.workers[worker]? = some m) :
    (s.act a).workers[worker]? = some m ∨ (s.act a).workers[worker]? = some (m.refresh s.clock) := by
  cases hj : a.batch? with
  | some j =>
    have hne : j ≠ i := fun heq => ha (heq ▸ hj)
    left
    cases hb : s.batches[j]? with
    | none => rwa [act_of_none hj hb]
    | some b =>
      obtain ⟨c, b', keys, notices, metrics, hc, ht, -, hact⟩ := touches_act hj hb
      rw [hact]
      by_cases hw : c.worker = worker
      · -- Nothing is outstanding in the worker's other batches, so no key comes back from them.
        rw [(ht.nil (h.others j c hne hc hw)).2, revert_nil]
        exact hm
      · exact (List.getElem?_modify_ne _ _ hw).trans hm
  | none =>
    cases a with
    | advance | observe | drop | settleAlone => cases hj
    | setClock | setFaults | setOptions => exact .inl hm
    | hire =>
      left
      exact (List.getElem?_append_left (List.getElem?_eq_some_iff.mp hm).1).trans hm
    | look other =>
      by_cases hw : other = worker
      · right
        simp only [act, look, hw, List.getElem?_modify_eq, hm]
        rfl
      · exact .inl ((List.getElem?_modify_ne _ _ hw).trans hm)
    | resolve fate ticket =>
      left
      cases hh : s.heldUnder? ticket with
      | none => rwa [act, resolveUnder_of_none hh]
      | some held =>
        rw [act, resolveUnder_of_some hh]
        exact hm
    | accept other spans =>
      left
      have hw : other ≠ worker := fun heq => hquiet spans (heq ▸ rfl)
      cases hother : s.workers[other]? with
      | none => rwa [act, accept_of_none hother]
      | some marks =>
        rw [act, accept_eq hother]
        exact (List.getElem?_set_ne hw).trans hm

theorem clock_act (s : Service) (a : Action) :
    (s.act a).clock = s.clock ∨ ∃ now, a = .setClock now ∧ (s.act a).clock = now := by
  have tended : Tending s (s.act a) → (s.act a).clock = s.clock := by
    intro h
    obtain ⟨_, _, _, _, hact⟩ := h.frame
    rw [hact]
  cases a with
  | setClock now => exact .inr ⟨now, rfl, rfl⟩
  | hire | look | setFaults | setOptions => exact .inl rfl
  | advance j place => exact .inl (tended (tending_advance s j place))
  | observe j => exact .inl (tended (tending_observe j s))
  | drop j => exact .inl (tended (tending_drop s j))
  | settleAlone j => exact .inl (tended (tending_settleAlone s j))
  | resolve fate ticket =>
    left
    cases hh : s.heldUnder? ticket with
    | none => rw [act, resolveUnder_of_none hh]
    | some held => rw [act, resolveUnder_of_some hh]
  | accept worker spans =>
    left
    cases hw : s.workers[worker]? with
    | none => rw [act, accept_of_none hw]
    | some marks =>
      rw [act, accept_eq hw]
      rfl

theorem workers_observe (hb : s.batches[i]? = some b) :
    (s.observe i).workers = (s.revert b.worker (b.sight.flatMap Flight.givenBack)).workers := by
  cases hlook : b.scan.look? with
  | none =>
    have hsight : b.sight = [] := by rw [Batch.sight, hlook]; rfl
    rw [hsight, List.flatMap_nil, revert_nil]
    simp only [observe, hb, hlook, setBatch]
  | some look =>
    obtain ⟨f, outcome, after⟩ := look
    obtain ⟨rest, -, houtcome, -⟩ := Batch.look?_eq_some hlook
    obtain ⟨notices, metrics, hobserve⟩ := observe_of_look hb hlook
    have hsight : b.sight.flatMap Flight.givenBack = f.returned outcome := by
      simp [Batch.sight, hlook, Flight.givenBack, houtcome]
    rw [hobserve, hsight]

theorem metrics_observe (hb : s.batches[i]? = some b) :
    (s.observe i).metrics = { s.metrics with
      writesFailed := s.metrics.writesFailed + b.sight.countP (·.storeFailure?.isSome)
      batchesFailed := s.metrics.batchesFailed + if b.failsBy b.watch then 1 else 0 } := by
  cases hlook : b.scan.look? with
  | none =>
    have hsight : b.sight = [] := by rw [Batch.sight, hlook]; rfl
    have hsame : b.failsBy b.watch = false := by
      rw [Batch.watch, hlook]
      cases hf : b.failure <;> simp [Batch.failsBy, Batch.scan, hf]
    simp only [observe, hb, hlook, setBatch, hsight, hsame]
    rfl
  | some look =>
    obtain ⟨f, outcome, after⟩ := look
    have hsight : b.sight = [f] := by rw [Batch.sight, hlook]; rfl
    have hwatch : b.watch = after := by rw [Batch.watch, hlook]
    have hfails : b.scan.failsBy after = b.failsBy b.watch := by rw [hwatch]; rfl
    have hlearn : (s.learn f).metrics = { s.metrics with
        writesFailed := s.metrics.writesFailed + [f].countP (·.storeFailure?.isSome) } := by
      cases hf : f.storeFailure? <;> simp [learn, hf, notify]
    simp only [observe, hb, hlook]
    rw [hsight, settleMark_eq]
    simp only [setBatch, countBatch, hfails]
    split
    · change { (s.learn f).metrics with batchesFailed := (s.learn f).metrics.batchesFailed + 1 } = _
      rw [hlearn]
    · exact hlearn

theorem failed_foldl_countAttempt (as : List Attempt) (m : Metrics) :
    (as.foldl countAttempt m).writesFailed = m.writesFailed ∧
      (as.foldl countAttempt m).batchesFailed = m.batchesFailed := by
  induction as generalizing m with
  | nil => exact ⟨rfl, rfl⟩
  | cons a as ih =>
    obtain ⟨hwrites, hbatches⟩ := ih (countAttempt m a)
    rw [List.foldl_cons, hwrites, hbatches]
    cases h : a.statement <;> simp [countAttempt, h]

theorem failed_accept (h : s.workers[worker]? = some marks) (spans : List Span) :
    (s.accept worker spans).metrics.writesFailed = s.metrics.writesFailed ∧
      (s.accept worker spans).metrics.batchesFailed = s.metrics.batchesFailed := by
  rw [accept_eq h]
  exact failed_foldl_countAttempt _ _

theorem failed_act (ha : a.batch? = none) :
    (s.act a).metrics.writesFailed = s.metrics.writesFailed ∧
      (s.act a).metrics.batchesFailed = s.metrics.batchesFailed := by
  cases a with
  | advance | observe | drop | settleAlone => cases ha
  | hire | look | setClock | setFaults | setOptions => exact ⟨rfl, rfl⟩
  | resolve fate ticket =>
    cases hh : s.heldUnder? ticket with
    | none =>
      rw [act, resolveUnder_of_none hh]
      exact ⟨rfl, rfl⟩
    | some held =>
      rw [act, resolveUnder_of_some hh]
      exact ⟨rfl, rfl⟩
  | accept worker spans =>
    cases hw : s.workers[worker]? with
    | none =>
      rw [act, accept_of_none hw]
      exact ⟨rfl, rfl⟩
    | some marks => exact failed_accept hw spans

end Service

namespace Batch

variable {b : Batch}

theorem tended_watch (b : Batch) : ∃ keys, b.Tended b.watch keys := by
  cases hlook : b.scan.look? with
  | none =>
    simp only [watch, hlook]
    exact ⟨[], .of_mem rfl mem_scan id⟩
  | some look =>
    simp only [watch, hlook]
    exact ⟨_, tended_look hlook⟩

/-- A property that a batch keeps whatever becomes of it: replies arrive, it is looked at in any
order, it is dropped, or what is outstanding of it is given up. -/
structure Stable (Q : Batch → Prop) : Prop where
  reply : ∀ b ticket r, Q b → Q (b.reply ticket r)
  watch : ∀ b, Q b → Q b.watch
  advance : ∀ b place, Q b → Q (b.advance place)
  drop : ∀ b, Q b → Q { b with isDropped := true }.forget
  forget : ∀ b, b.failure.isSome → Q b → Q b.forget

namespace Stable

variable {Q : Batch → Prop} {s : Service} {i : Nat}

theorem replies (hQ : Stable Q) (h : Q b) (arrivals : List Arrival) : Q (b.replies arrivals) := by
  induction arrivals generalizing b with
  | nil => exact h
  | cons a arrivals ih => exact ih (hQ.reply b a.1 a.2 h)

theorem observeUntilFailure (hQ : Stable Q) (n : Nat) (hb : s.batches[i]? = some b) (h : Q b) :
    ∃ b', (Service.observeUntilFailure i n s).batches[i]? = some b' ∧ Q b' := by
  induction n generalizing s b with
  | zero => exact ⟨b, hb, h⟩
  | succ n ih =>
    simp only [Service.observeUntilFailure]
    split
    · exact ⟨b, hb, h⟩
    · exact ih (Service.getElem?_observe hb) (hQ.watch b h)

theorem drop_batch (hQ : Stable Q) (hb : s.batches[i]? = some b) (h : Q b) :
    ∃ b', (s.drop i).batches[i]? = some b' ∧ Q b' := by
  simp only [Service.drop, hb]
  split
  · exact ⟨_, getElem?_set_of_some hb _,
      hQ.drop b h⟩
  · exact ⟨b, hb, h⟩

theorem settleAlone (hQ : Stable Q) (hb : s.batches[i]? = some b) (h : Q b) :
    ∃ b', (s.settleAlone i).batches[i]? = some b' ∧ Q b' := by
  obtain ⟨b₁, hb₁, h₁⟩ := hQ.observeUntilFailure (s.readyCount i) hb h
  simp only [Service.settleAlone, hb₁]
  split
  · rename_i hfailed
    split
    · exact ⟨b₁, hb₁, h₁⟩
    · exact ⟨_, getElem?_set_of_some hb₁ _,
        hQ.forget b₁ hfailed h₁⟩
  · exact hQ.drop_batch hb₁ h₁

theorem act (hQ : Stable Q) (a : Action) (hb : s.batches[i]? = some b) (h : Q b) :
    ∃ b', (s.act a).batches[i]? = some b' ∧ Q b' := by
  by_cases hi : a.batch? = some i
  · cases a with
    | hire | accept | resolve | look | setClock | setFaults | setOptions => cases hi
    | advance j place =>
      obtain rfl : j = i := Option.some.inj hi
      simp only [Service.act, Service.advance, hb]
      exact ⟨_, getElem?_set_of_some hb _, hQ.advance b place h⟩
    | observe j =>
      obtain rfl : j = i := Option.some.inj hi
      exact ⟨_, Service.getElem?_observe hb, hQ.watch b h⟩
    | drop j =>
      obtain rfl : j = i := Option.some.inj hi
      exact hQ.drop_batch hb h
    | settleAlone j =>
      obtain rfl : j = i := Option.some.inj hi
      exact hQ.settleAlone hb h
  · exact ⟨_, Service.getElem?_act hi hb, hQ.replies h _⟩

theorem run (hQ : Stable Q) (actions : List Action) (hb : s.batches[i]? = some b) (h : Q b) :
    ∃ b', (s.run actions).batches[i]? = some b' ∧ Q b' := by
  induction actions generalizing s b with
  | nil => exact ⟨b, hb, h⟩
  | cons a rest ih =>
    obtain ⟨b₁, hb₁, h₁⟩ := hQ.act a hb h
    exact ih hb₁ h₁

end Stable

end Batch

end TraceIndex
