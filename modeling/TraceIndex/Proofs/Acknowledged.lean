import TraceIndex.Proofs.Endings

namespace TraceIndex

deriving instance DecidableEq for BatchState

def Report.stored? : Report → Option String
  | .answered st (.ok ()) => st.mark?
  | _ => none

def Stored (past : List Report) (key : String) : Prop := ∃ r ∈ past, r.stored? = some key

instance (past : List Report) (key : String) : Decidable (Stored past key) :=
  inferInstanceAs (Decidable (∃ r ∈ past, r.stored? = some key))

theorem stored_append (past more : List Report) (key : String) :
    Stored (past ++ more) key ↔ Stored past key ∨ Stored more key := by
  simp only [Stored, List.mem_append, or_and_right, exists_or]

theorem Stored.append {past : List Report} {key : String} (h : Stored past key)
    (more : List Report) : Stored (past ++ more) key :=
  (stored_append past more key).mpr (.inl h)

theorem Stored.of_answered {past : List Report} {st : Statement} {key : String}
    (h : .answered st (.ok ()) ∈ past) (hkey : st.mark? = some key) : Stored past key :=
  ⟨_, h, hkey⟩

structure Flight.Sound (f : Flight) (past : List Report) (issued : Nat)
    (held : List (Nat × Statement)) : Prop where
  issued : f.ticket < issued
  mark : ∀ st, f.attempt.statement = .ok st → st.mark? = f.attempt.mark
  stored : f.outcome? = some (.ok ()) → ∀ key, f.attempt.mark = some key → Stored past key
  held : ∀ h ∈ held, h.1 = f.ticket → f.attempt.statement = .ok h.2 ∧ f.reply = none

namespace Service

/-- A worker waits for the outcome of a write. -/
def Awaits (s : Service) (worker : Nat) (f : Flight) : Prop :=
  ∃ b ∈ s.batches, b.worker = worker ∧ f ∈ b.outstanding

def Unsettled (s : Service) (worker : Nat) (key : String) : Prop :=
  ∃ f, s.Awaits worker f ∧ f.attempt.mark = some key

/-- What holds of a service after every run, given what was told of it. -/
structure Accounted (past : List Report) (s : Service) : Prop where
  live : ∀ (worker : Nat) (m : Marks) (key : String), s.workers[worker]? = some m → m.Live key →
    Stored past key ∨ s.Unsettled worker key
  sound : ∀ worker f, s.Awaits worker f → f.Sound past s.issued s.held
  ticketed : s.Ticketed

variable {past : List Report} {s t : Service}

theorem accounted_hire (hs : Accounted past s) : Accounted past s.addWorker where
  live worker m key hm hlive := by
    exact hs.live worker m key (live_addWorker hm hlive) hlive
  sound := hs.sound
  ticketed := hs.ticketed.frame rfl rfl

theorem accounted_look (hs : Accounted past s) (worker : Nat) : Accounted past (s.look worker) where
  live w m key hm hlive := by
    obtain ⟨m₀, hm₀, hlive₀, -⟩ := live_look hm hlive
    exact hs.live w m₀ key hm₀ hlive₀
  sound := hs.sound
  ticketed := hs.ticketed.frame rfl rfl

theorem accounted_set {clock : Clock} {store : Keyspace} (hs : Accounted past s) :
    Accounted past { s with clock, store } :=
  ⟨hs.live, hs.sound, hs.ticketed.frame rfl rfl⟩

theorem awaits_tends {i : Nat} {b b' : Batch} {keys : List String}
    (hb : s.batches[i]? = some b) (h : b.Tended b' keys)
    (ht : t.batches = s.batches.set i b') {worker : Nat} {f : Flight}
    (hf : t.Awaits worker f) : s.Awaits worker f := by
  obtain ⟨c, hc, hw, hfc⟩ := hf
  rw [ht] at hc
  obtain hc | rfl := List.mem_or_eq_of_mem_set hc
  · exact ⟨c, hc, hw, hfc⟩
  · exact ⟨b, List.mem_of_getElem? hb, h.worker ▸ hw, h.outstanding f hfc⟩

theorem unsettled_tends (hs : Accounted past s) {i : Nat} {b b' : Batch} {keys : List String}
    (hb : s.batches[i]? = some b) (h : b.Tended b' keys)
    (ht : t.batches = s.batches.set i b') {worker : Nat} {key : String}
    (hu : s.Unsettled worker key) (hkeys : b.worker = worker → key ∉ keys) :
    Stored past key ∨ t.Unsettled worker key := by
  obtain ⟨f, ⟨c, hc, hw, hf⟩, hmark⟩ := hu
  obtain ⟨j, hj⟩ := List.mem_iff_getElem?.mp hc
  by_cases hij : i = j
  · subst j
    obtain rfl : b = c := Option.some.inj (hb.symm.trans hj)
    have hlt := (List.getElem?_eq_some_iff.mp hb).1
    have hb' : b' ∈ t.batches := by
      rw [ht]
      exact List.mem_set hlt b'
    obtain hf' | hok | ⟨-, hback⟩ := h.seen f hf
    · exact .inr ⟨f, ⟨b', hb', h.worker.trans hw, hf'⟩, hmark⟩
    · exact .inl ((hs.sound worker f ⟨b, hc, hw, hf⟩).stored hok key hmark)
    · exact absurd (hback key hmark) (hkeys hw)
  · have hc' : c ∈ t.batches := by
      rw [ht]
      exact List.mem_of_getElem? ((List.getElem?_set_ne hij).trans hj)
    exact .inr ⟨f, ⟨c, hc', hw, hf⟩, hmark⟩

theorem accounted_tends (hs : Accounted past s) (h : Tends s t) : Accounted past t := by
  have hticketed := hs.ticketed.frame h.frame.1 h.frame.2.1
  obtain ⟨i, b, b', keys, notices, metrics, hb, htended, rfl⟩ := h
  refine ⟨?_, ?_, hticketed⟩
  · intro worker m key hm hlive
    obtain ⟨m₀, hm₀, hlive₀, -, hback⟩ := live_revert hm hlive
    obtain hstored | hu := hs.live worker m₀ key hm₀ hlive₀
    · exact .inl hstored
    · exact unsettled_tends hs hb htended rfl hu hback
  · intro worker f hf
    exact hs.sound worker f (awaits_tends hb htended rfl hf)

section Accept

variable {worker : Nat} {marks : Marks} {spans : List Span}

theorem awaits_accept (h : s.workers[worker]? = some marks) {w : Nat} {f : Flight}
    (hf : (s.accept worker spans).Awaits w f) :
    s.Awaits w f ∨ w = worker ∧ f ∈ s.flights s.issued (s.started marks spans) := by
  obtain ⟨b, hb, hw, hfb⟩ := hf
  rw [accept_batches h] at hb
  obtain hb | hb := List.mem_append.mp hb
  · exact .inl ⟨b, hb, hw, hfb⟩
  · obtain rfl := List.mem_singleton.mp hb
    exact .inr ⟨hw.symm, by simpa [Batch.outstanding, Batch.ofFlights] using hfb⟩

variable (worker) in
theorem exists_flight {a : Attempt} (ha : a ∈ s.started marks spans) :
    ∃ f ∈ (Batch.ofFlights worker (s.flights s.issued (s.started marks spans))).outstanding,
      f.attempt = a := by
  rw [← s.flights_attempts s.issued (s.started marks spans)] at ha
  obtain ⟨f, hf, rfl⟩ := List.mem_map.mp ha
  exact ⟨f, List.mem_append_left _ hf, rfl⟩

theorem unsettled_accept (h : s.workers[worker]? = some marks) {a : Attempt} {key : String}
    (ha : a ∈ s.started marks spans) (hkey : a.mark = some key) :
    (s.accept worker spans).Unsettled worker key := by
  obtain ⟨f, hf, rfl⟩ := exists_flight worker ha
  refine ⟨f, ⟨_, ?_, rfl, hf⟩, hkey⟩
  rw [accept_batches h]
  exact List.mem_append_right _ List.mem_cons_self

theorem Awaits.accept (h : s.workers[worker]? = some marks) {w : Nat} {f : Flight}
    (hf : s.Awaits w f) : (s.accept worker spans).Awaits w f := by
  obtain ⟨b, hb, hw, hfb⟩ := hf
  refine ⟨b, ?_, hw, hfb⟩
  rw [accept_batches h]
  exact List.mem_append_left _ hb

theorem Unsettled.accept (h : s.workers[worker]? = some marks) {w : Nat} {key : String}
    (hs : s.Unsettled w key) : (s.accept worker spans).Unsettled w key := by
  obtain ⟨f, hf, hkey⟩ := hs
  exact ⟨f, hf.accept h, hkey⟩

theorem sound_accept (h : s.workers[worker]? = some marks) {f : Flight}
    (hf : f.Sound past s.issued s.held) :
    f.Sound (past ++ s.reports (.accept worker spans)) (s.accept worker spans).issued
      (s.accept worker spans).held := by
  rw [accept_issued h, accept_held h]
  refine ⟨Nat.lt_add_right _ hf.issued, hf.mark, ?_, ?_⟩
  · intro hok key hkey
    exact (hf.stored hok key hkey).append _
  · intro g hg hticket
    obtain hg | hg := List.mem_append.mp hg
    · exact hf.held g hg hticket
    · obtain ⟨i, -, -, hi, -⟩ := mem_heldBack hg
      have := hf.issued
      omega

theorem answered_of_flight (h : s.workers[worker]? = some marks) {ticket : Nat} {a : Attempt}
    (ha : a ∈ s.started marks spans) (hok : (s.flight ticket a).outcome? = some (.ok ())) :
    ∃ st, a.sent? = some st ∧ .answered st (.ok ()) ∈ s.reports (.accept worker spans) := by
  obtain ⟨-, -, hreply⟩ := Flight.outcome?_eq_ok.mp hok
  obtain ⟨st, hst, hanswer⟩ := Option.map_eq_some_iff.mp hreply
  have hdirect : st ∈ (s.started marks spans).filterMap s.direct? :=
    List.mem_filterMap.mpr ⟨a, ha, hst⟩
  exact ⟨st, (Option.filter_eq_some_iff.mp hst).1, (answered_accept h).mpr ⟨hdirect, hanswer⟩⟩

theorem sound_of_started (h : s.workers[worker]? = some marks) (hs : s.Ticketed) {f : Flight}
    (hf : f ∈ s.flights s.issued (s.started marks spans)) :
    f.Sound (past ++ s.reports (.accept worker spans)) (s.accept worker spans).issued
      (s.accept worker spans).held := by
  obtain ⟨i, a, ha, rfl⟩ := mem_flights hf
  have hmem : a ∈ s.started marks spans := List.mem_of_getElem? ha
  have hlt := (List.getElem?_eq_some_iff.mp ha).1
  rw [accept_issued h, accept_held h]
  refine ⟨Nat.add_lt_add_left hlt _, ?_, ?_, ?_⟩
  · intro st hst
    exact mark?_of_started hmem (Attempt.sent?_eq_some.mpr hst)
  · intro hok key hkey
    obtain ⟨st, hsent, hanswered⟩ := answered_of_flight h hmem hok
    apply Stored.of_answered (List.mem_append_right _ hanswered)
    exact (mark?_of_started hmem hsent).trans hkey
  · intro g hg hticket
    change g.1 = s.issued + i at hticket
    obtain hg | hg := List.mem_append.mp hg
    · have := hs.issued g hg
      omega
    · obtain ⟨j, a', ha', hj, hst, hgate⟩ := mem_heldBack hg
      obtain rfl : i = j := by omega
      obtain rfl : a = a' := Option.some.inj (ha.symm.trans ha')
      refine ⟨Attempt.sent?_eq_some.mp hst, ?_⟩
      simp [flight, direct?, hst, hgate, Option.filter]

theorem accounted_accept (hs : Accounted past s) (h : s.workers[worker]? = some marks) :
    Accounted (past ++ s.reports (.accept worker spans)) (s.accept worker spans) := by
  refine ⟨?_, ?_, ticketed_accept h hs.ticketed⟩
  · intro w m key hm hlive
    obtain ⟨m₀, hm₀, hlive₀, -⟩ | ⟨rfl, a, ha, hkey⟩ := live_accept h hm hlive
    · obtain hstored | hu := hs.live w m₀ key hm₀ hlive₀
      · exact .inl (hstored.append _)
      · exact .inr (hu.accept h)
    · exact .inr (unsettled_accept h ha hkey)
  · intro w f hf
    obtain hold | ⟨rfl, hnew⟩ := awaits_accept h hf
    · exact sound_accept h (hs.sound w f hold)
    · exact sound_of_started h hs.ticketed hnew

end Accept

theorem sound_answer {f : Flight} (hf : f.Sound past s.issued s.held) {h : Nat × Statement}
    (hmem : h ∈ s.held) (r : Except StoreFailure Unit) :
    (Batch.answer h.1 r f).Sound (past ++ [.answered h.2 r]) s.issued
      (s.held.filter (·.1 ≠ h.1)) := by
  obtain ⟨hattempt, hticket⟩ := Batch.answer_attempt h.1 r f
  refine ⟨hticket ▸ hf.issued, hattempt ▸ hf.mark, ?_, ?_⟩
  · intro hok key hkey
    rw [hattempt] at hkey
    by_cases hmine : f.ticket = h.1
    · obtain ⟨hst, -⟩ := hf.held h hmem hmine.symm
      obtain ⟨-, -, hreply⟩ := Flight.outcome?_eq_ok.mp hok
      simp only [Batch.answer, hmine, ↓reduceIte, Option.some.injEq] at hreply
      apply Stored.of_answered _ ((hf.mark _ hst).trans hkey)
      rw [hreply]
      exact List.mem_append_right _ List.mem_cons_self
    · have hsame : Batch.answer h.1 r f = f := if_neg hmine
      rw [hsame] at hok
      exact (hf.stored hok key hkey).append _
  · intro g hg hgticket
    obtain ⟨hg, hother⟩ := List.mem_filter.mp hg
    have hne : f.ticket ≠ h.1 := by
      rw [← hticket, ← hgticket]
      exact of_decide_eq_true hother
    have hsame : Batch.answer h.1 r f = f := if_neg hne
    rw [hsame]
    exact hf.held g hg (hgticket.trans hticket)

theorem accounted_resolve (hs : Accounted past s) (fate : Fate) {h : Nat × Statement}
    (hh : s.heldUnder? h.1 = some h) :
    Accounted (past ++ [.answered h.2 (s.replyTo h.2 fate)]) (s.resolveUnder fate h.1) := by
  have hmem := (mem_held_of_heldUnder? hh).1
  have hticketed := ticketed_resolve hs.ticketed fate hh
  rw [resolveUnder_of_some hh] at hticketed ⊢
  refine ⟨?_, ?_, hticketed⟩
  · intro w m key hm hlive
    obtain hstored | ⟨f, ⟨b, hb, hw, hf⟩, hkey⟩ := hs.live w m key hm hlive
    · exact .inl (hstored.append _)
    · refine .inr ⟨_, ⟨_, List.mem_map.mpr ⟨b, hb, rfl⟩, hw,
        (Batch.mem_reply _ _ _).mpr ⟨f, hf, rfl⟩⟩, ?_⟩
      rw [(Batch.answer_attempt _ _ f).1, hkey]
  · intro w f hf
    obtain ⟨c, hc, hw, hf⟩ := hf
    obtain ⟨b, hb, rfl⟩ := List.mem_map.mp hc
    obtain ⟨g, hg, rfl⟩ := (Batch.mem_reply _ _ _).mp hf
    exact sound_answer (hs.sound w g ⟨b, hb, hw, hg⟩) hmem _

theorem accounted_preserved : Preserved Accounted where
  hire _ _ hs := accounted_hire hs
  accept _ _ _ _ _ h hs := accounted_accept hs h
  tends _ _ _ h hs := accounted_tends hs h
  resolve _ _ fate _ hh hs := accounted_resolve hs fate hh
  look _ _ worker hs := accounted_look hs worker
  set _ _ _ _ _ hs := accounted_set hs

/-- Unless a batch is spoilt, each of the keys is stored or still among its own writes. -/
def Pledged (past : List Report) (s : Service) (i : Nat) (keys : List String) : Prop :=
  ∃ b, s.batches[i]? = some b ∧ (b.Spoilt ∨
    ∀ key ∈ keys, Stored past key ∨ ∃ f ∈ b.outstanding, f.attempt.mark = some key)

section Pledged

variable {i : Nat} {keys : List String}

theorem pledged_append (h : Pledged past s i keys) (more : List Report)
    (ht : ∀ b, s.batches[i]? = some b → t.batches[i]? = some b) :
    Pledged (past ++ more) t i keys := by
  obtain ⟨b, hb, hkeys⟩ := h
  exact ⟨b, ht b hb, hkeys.imp_right fun h key hkey => (h key hkey).imp_left (·.append more)⟩

theorem pledged_tends (hs : Accounted past s) (h : Tends s t) (hp : Pledged past s i keys) :
    Pledged past t i keys := by
  obtain ⟨j, b, b', reverted, notices, metrics, hb, htended, rfl⟩ := h
  obtain ⟨c, hc, hkeys⟩ := hp
  by_cases hij : j = i
  · subst hij
    obtain rfl : b = c := Option.some.inj (hb.symm.trans hc)
    refine ⟨b', getElem?_set_of_some hb b', ?_⟩
    obtain hspoilt | hkeys := hkeys
    · exact .inl (htended.spoilt hspoilt)
    · by_cases hspoilt : b'.Spoilt
      · exact .inl hspoilt
      · apply Or.inr
        intro key hkey
        obtain hstored | ⟨f, hf, hmark⟩ := hkeys key hkey
        · exact .inl hstored
        · obtain hf' | hok | ⟨hspoilt', -⟩ := htended.seen f hf
          · exact .inr ⟨f, hf', hmark⟩
          · have hsound := hs.sound b.worker f ⟨b, List.mem_of_getElem? hb, rfl, hf⟩
            exact .inl (hsound.stored hok key hmark)
          · exact absurd hspoilt' hspoilt
  · exact ⟨c, (List.getElem?_set_ne hij).trans hc, hkeys⟩

theorem pledged_resolve (hp : Pledged past s i keys) (fate : Fate) {h : Nat × Statement}
    (hh : s.heldUnder? h.1 = some h) (more : List Report) :
    Pledged (past ++ more) (s.resolveUnder fate h.1) i keys := by
  obtain ⟨b, hb, hkeys⟩ := hp
  rw [resolveUnder_of_some hh]
  refine ⟨b.reply h.1 (s.replyTo h.2 fate), by simp [hb], hkeys.imp_right fun hk key hkey => ?_⟩
  obtain hstored | ⟨f, hf, hmark⟩ := hk key hkey
  · exact .inl (hstored.append more)
  · refine .inr ⟨_, (Batch.mem_reply _ _ _).mpr ⟨f, hf, rfl⟩, ?_⟩
    rw [(Batch.answer_attempt _ _ f).1, hmark]

theorem pledged_preserved (i : Nat) (keys : List String) :
    Preserved fun past s => Accounted past s ∧ Pledged past s i keys where
  hire past s hs := ⟨accounted_hire hs.1, hs.2⟩
  accept past s worker marks spans h hs := by
    refine ⟨accounted_accept hs.1 h, pledged_append hs.2 _ ?_⟩
    intro b hb
    rw [accept_batches h]
    exact (List.getElem?_append_left (List.getElem?_eq_some_iff.mp hb).1).trans hb
  tends past s t h hs := ⟨accounted_tends hs.1 h, pledged_tends hs.1 h hs.2⟩
  resolve past s fate h hh hs :=
    ⟨accounted_resolve hs.1 fate hh, pledged_resolve hs.2 fate hh _⟩
  look past s worker hs := ⟨accounted_look hs.1 worker, hs.2⟩
  set past s clock faults options hs := ⟨accounted_set hs.1, hs.2⟩

theorem pledged_accept {worker : Nat} {marks : Marks} (h : s.workers[worker]? = some marks)
    (spans : List Span) :
    Pledged past (s.accept worker spans) s.batches.length
      ((s.started marks spans).filterMap (·.mark)) := by
  refine ⟨.ofFlights worker (s.flights s.issued (s.started marks spans)), batch_accept h spans,
    .inr fun key hkey => .inr ?_⟩
  obtain ⟨a, ha, hmark⟩ := List.mem_filterMap.mp hkey
  obtain ⟨f, hf, rfl⟩ := exists_flight worker ha
  exact ⟨f, hf, hmark⟩

theorem Pledged.stored (h : Pledged past s i keys)
    (hok : s.batchState? i = some (.done (.ok ()))) : ∀ key ∈ keys, Stored past key := by
  obtain ⟨b, hb, hkeys⟩ := h
  have hstate : b.state = .done (.ok ()) := by simpa [batchState?, hb] using hok
  obtain ⟨hspoilt, hempty⟩ := Batch.of_state_ok hstate
  intro key hkey
  obtain hstored | ⟨f, hf, -⟩ := hkeys.resolve_left hspoilt key hkey
  · exact hstored
  · rw [hempty] at hf
    cases hf

end Pledged

/-- A batch is spoilt, or a write of it has failed. -/
def Doomed (s : Service) (i : Nat) : Prop :=
  ∃ b, s.batches[i]? = some b ∧ (b.Spoilt ∨ ∃ f ∈ b.outstanding, f.HasFailed)

section Doomed

variable {i : Nat}

theorem not_held_of_failed {f : Flight} (hf : f.Sound past s.issued s.held) (hfailed : f.HasFailed)
    {h : Nat × Statement} (hh : h ∈ s.held) : f.ticket ≠ h.1 := by
  intro hticket
  obtain ⟨hst, hreply⟩ := hf.held h hh hticket.symm
  obtain ⟨failure, houtcome⟩ := hfailed
  simp [Flight.outcome?, hst, hreply] at houtcome

theorem doomed_tends (h : Tends s t) (hd : Doomed s i) : Doomed t i := by
  obtain ⟨j, b, b', keys, notices, metrics, hb, htended, rfl⟩ := h
  obtain ⟨c, hc, hcase⟩ := hd
  by_cases hij : j = i
  · subst j
    obtain rfl : b = c := Option.some.inj (hb.symm.trans hc)
    refine ⟨b', getElem?_set_of_some hb b', ?_⟩
    obtain hspoilt | ⟨f, hf, failure, houtcome⟩ := hcase
    · exact .inl (htended.spoilt hspoilt)
    · obtain hf' | hok | ⟨hspoilt, -⟩ := htended.seen f hf
      · exact .inr ⟨f, hf', failure, houtcome⟩
      · rw [houtcome] at hok
        cases hok
      · exact .inl hspoilt
  · exact ⟨c, (List.getElem?_set_ne hij).trans hc, hcase⟩

theorem doomed_resolve (hs : Accounted past s) (hd : Doomed s i) (fate : Fate)
    {h : Nat × Statement} (hh : s.heldUnder? h.1 = some h) :
    Doomed (s.resolveUnder fate h.1) i := by
  obtain ⟨b, hb, hcase⟩ := hd
  rw [resolveUnder_of_some hh]
  refine ⟨b.reply h.1 (s.replyTo h.2 fate), by simp [hb], ?_⟩
  obtain hspoilt | ⟨f, hf, hfailed⟩ := hcase
  · exact .inl hspoilt
  · have hsound := hs.sound b.worker f ⟨b, List.mem_of_getElem? hb, rfl, hf⟩
    have hne := not_held_of_failed hsound hfailed (mem_held_of_heldUnder? hh).1
    have hsame : Batch.answer h.1 (s.replyTo h.2 fate) f = f := if_neg hne
    exact .inr ⟨f, (Batch.mem_reply _ _ _).mpr ⟨f, hf, hsame⟩, hfailed⟩

theorem doomed_preserved (i : Nat) : Preserved fun past s => Accounted past s ∧ Doomed s i where
  hire past s hs := ⟨accounted_hire hs.1, hs.2⟩
  accept past s worker marks spans h hs := by
    refine ⟨accounted_accept hs.1 h, ?_⟩
    obtain ⟨b, hb, hcase⟩ := hs.2
    refine ⟨b, ?_, hcase⟩
    rw [accept_batches h]
    exact (List.getElem?_append_left (List.getElem?_eq_some_iff.mp hb).1).trans hb
  tends past s t h hs := ⟨accounted_tends hs.1 h, doomed_tends h hs.2⟩
  resolve past s fate h hh hs := ⟨accounted_resolve hs.1 fate hh, doomed_resolve hs.1 hs.2 fate hh⟩
  look past s worker hs := ⟨accounted_look hs.1 worker, hs.2⟩
  set past s clock faults options hs := ⟨accounted_set hs.1, hs.2⟩

theorem Doomed.not_ok (h : Doomed s i) : s.batchState? i ≠ some (.done (.ok ())) := by
  intro hok
  obtain ⟨b, hb, hcase⟩ := h
  have hstate : b.state = .done (.ok ()) := by simpa [batchState?, hb] using hok
  obtain ⟨hspoilt, hempty⟩ := Batch.of_state_ok hstate
  obtain hspoilt' | ⟨f, hf, -⟩ := hcase
  · exact hspoilt hspoilt'
  · rw [hempty] at hf
    cases hf

end Doomed

theorem accounted_opened {setup : Setup} (h : setup.openService = .ok s) : Accounted [] s := by
  have hticketed := ticketed_opened h
  obtain ⟨schema, expiry, random, durations, rfl⟩ := Setup.openService_eq_ok h
  refine ⟨?_, ?_, hticketed⟩
  · intro worker m key hm
    simp [Setup.service] at hm
  · intro worker f hf
    obtain ⟨b, hb, -⟩ := hf
    simp [Setup.service] at hb

theorem accounted_run {setup : Setup} (opened : setup.openService = .ok s)
    (actions : List Action) : Accounted (s.history actions) (s.run actions) :=
  accounted_preserved.run (accounted_opened opened) actions

def DoneBefore (s : Service) (worker i : Nat) : Prop :=
  ∀ j < i, ∀ b, s.batches[j]? = some b → b.worker = worker → b.state ≠ .pending

theorem doneBefore_of_state {i : Nat} (h : ∀ j < i, s.batchState? j ≠ some .pending)
    (worker : Nat) : s.DoneBefore worker i := by
  intro j hj b hb _ hpending
  apply h j hj
  rw [batchState?, hb, Option.map_some, hpending]

/-- Whenever the spans that a worker is given after a run succeed as a batch, and the batches that
it accepted before are done or given up, the names of the spans are stored. -/
def OkStores (s : Service) (earlier : List Action) (worker : Nat) (spans : List Span) : Prop :=
  ∀ later : List Action,
    (s.run (earlier ++ .accept worker spans :: later)).batchState?
      (s.run earlier).batches.length = some (.done (.ok ())) →
    (s.run (earlier ++ .accept worker spans :: later)).DoneBefore worker
      (s.run earlier).batches.length →
    ∀ key ∈ nameKeysOf spans,
      Stored (s.history (earlier ++ .accept worker spans :: later)) key

theorem run_accept (s : Service) (earlier : List Action) (worker : Nat) (spans : List Span)
    (later : List Action) :
    s.run (earlier ++ .accept worker spans :: later) =
      ((s.run earlier).accept worker spans).run later := by
  rw [run_append]
  rfl

theorem history_accept (s : Service) (earlier : List Action) (worker : Nat) (spans : List Span)
    (later : List Action) :
    s.history (earlier ++ .accept worker spans :: later) =
      s.history earlier ++ (s.run earlier).reports (.accept worker spans) ++
        ((s.run earlier).accept worker spans).history later := by
  rw [history_append, history, List.append_assoc]
  rfl

section Vouched

variable {worker : Nat} {marks : Marks} {spans : List Span} {later : List Action}

theorem stored_of_ok (ht : Accounted past t) (h : t.workers[worker]? = some marks)
    (ok : ((t.accept worker spans).run later).batchState? t.batches.length =
      some (.done (.ok ()))) {key : String} (hkey : key ∈ nameKeysOf spans)
    (hforce : marks.InForce t.clock key → Stored past key) :
    Stored (past ++ t.reports (.accept worker spans) ++ (t.accept worker spans).history later)
      key := by
  have after := (pledged_preserved t.batches.length _).run
    ⟨accounted_accept ht h, pledged_accept h spans⟩ later
  obtain hin | ⟨a, ha, hmark⟩ := inForce_or_started hkey
  · exact ((hforce hin).append _).append _
  · exact after.2.stored ok key (List.mem_filterMap.mpr ⟨a, ha, hmark⟩)

theorem not_ok_of_hasFailure (ht : Accounted past t) (h : t.workers[worker]? = some marks)
    (hfailure : (t.accept worker spans).HasFailure t.batches.length) :
    ((t.accept worker spans).run later).batchState? t.batches.length ≠ some (.done (.ok ())) := by
  obtain ⟨b, hb, hfailed⟩ := hfailure
  have after := (doomed_preserved t.batches.length).run
    ⟨accounted_accept ht h, ⟨b, hb, .inr hfailed⟩⟩ later
  exact after.2.not_ok

theorem not_stored_of_inForce {more : List Report}
    (hmore : ∀ st r, .answered st r ∈ more → ∃ a ∈ t.started marks spans, a.sent? = some st)
    {key : String} (hforce : marks.InForce t.clock key) : ¬ Stored more key := by
  rintro ⟨r, hr, hstored⟩
  cases r with
  | accepted span => cases hstored
  | answered st reply =>
    cases reply with
    | error failure => cases hstored
    | ok =>
      obtain ⟨a, ha, hsent⟩ := hmore st _ hr
      have hmark : a.mark = some key := (mark?_of_started ha hsent).symm.trans hstored
      exact not_inForce_of_started ha hmark hforce

/-- A batch can succeed with nothing stored but what it attempts, and then a name that was in force
has been stored before. -/
theorem stored_of_okStores {earlier : List Action} (ht : (s.run earlier).Ticketed)
    (h : (s.run earlier).workers[worker]? = some marks)
    (hfine : ¬ ((s.run earlier).accept worker spans).HasFailure (s.run earlier).batches.length)
    (hstores : s.OkStores earlier worker spans) {key : String} (hkey : key ∈ nameKeysOf spans)
    (hforce : marks.InForce (s.run earlier).clock key) : Stored (s.history earlier) key := by
  obtain ⟨hok, hdone⟩ := batch_ending h ht hfine
  have hstored := hstores ((s.run earlier).ending marks spans)
  rw [run_accept, history_accept] at hstored
  have hwhole := hstored hok (doneBefore_of_state hdone worker) key hkey
  obtain hbefore | hending := (stored_append _ _ key).mp hwhole
  · obtain hold | haccept := (stored_append _ _ key).mp hbefore
    · exact hold
    · exact absurd haccept (not_stored_of_inForce (fun st r hst => sent_of_answered h hst) hforce)
  · exact absurd hending (not_stored_of_inForce (fun st r hst => history_ending h ht hst) hforce)

end Vouched

/-- The names of a batch are stored whenever it succeeds exactly if those that are in force when it
is accepted are stored by then, or it cannot succeed. In a batch that succeeds no name is missing
but one that its worker had an unsettled write of. -/
theorem ok_stored_iff (setup : Setup) (s : Service) (earlier : List Action) (worker : Nat)
    (spans : List Span) (opened : setup.openService = .ok s)
    (hired : worker < (s.run earlier).workers.length) :
    (s.OkStores earlier worker spans ↔
      ((s.run earlier).accept worker spans).HasFailure (s.run earlier).batches.length ∨
        ∀ key ∈ nameKeysOf spans,
          (s.run earlier).workers[worker].InForce (s.run earlier).clock key →
          Stored (s.history earlier) key) ∧
    ∀ later : List Action,
      (s.run (earlier ++ .accept worker spans :: later)).batchState?
        (s.run earlier).batches.length = some (.done (.ok ())) →
      ∀ key ∈ nameKeysOf spans, ¬ (s.run earlier).Unsettled worker key →
        Stored (s.history (earlier ++ .accept worker spans :: later)) key := by
  let t := s.run earlier
  have h : t.workers[worker]? = some t.workers[worker] := List.getElem?_eq_getElem hired
  have ht : Accounted (s.history earlier) t := accounted_run opened earlier
  refine ⟨⟨?_, ?_⟩, ?_⟩
  · intro hstores
    by_cases hfailure : (t.accept worker spans).HasFailure t.batches.length
    · exact .inl hfailure
    · apply Or.inr
      intro key hkey hforce
      exact stored_of_okStores ht.ticketed h hfailure hstores hkey hforce
  · rintro (hfailure | hforce) later hok - key hkey
    · rw [run_accept] at hok
      exact absurd hok (not_ok_of_hasFailure ht h hfailure)
    · rw [run_accept] at hok
      rw [history_accept]
      exact stored_of_ok ht h hok hkey (hforce key hkey)
  · intro later hok key hkey hunsettled
    rw [run_accept] at hok
    rw [history_accept]
    apply stored_of_ok ht h hok hkey
    intro hforce
    exact (ht.live worker _ key h hforce.live).resolve_right hunsettled

theorem ok_stored_iff_settled :
    let earlier : List Action := [.hire, .accept 0 [.of "web" ""], .observe 0, .observe 0]
    Setup.zipkin.openService = .ok zipkin ∧
    0 < (zipkin.run earlier).workers.length ∧
    zipkin.OkStores earlier 0 [.of "web" ""] := by
  intro earlier
  have hired : 0 < (zipkin.run earlier).workers.length := by decide +kernel
  have stored : ∀ key ∈ nameKeysOf [.of "web" ""], Stored (zipkin.history earlier) key := by
    decide +kernel
  refine ⟨zipkin_opened, hired, ?_⟩
  apply (ok_stored_iff _ _ earlier 0 _ zipkin_opened hired).1.mpr
  exact .inr fun key hkey _ => stored key hkey

/-- Both writes of a batch fail. It is done with the first, and its worker tries again before the
second is looked at. -/
def lateDrain : List Action :=
  [.hire, .setFaults [.onTable .traces (.timeout "slow"), .onTable .serviceNames (.timeout "slow")],
    .accept 0 [.of "web" ""], .observe 0, .setFaults []]

/-- The second batch succeeds without the name that neither has stored. -/
theorem ok_with_name_unstored :
    Setup.zipkin.openService = .ok zipkin ∧
    let actions : List Action := lateDrain ++ .accept 0 [.of "web" ""] :: [.observe 1]
    (zipkin.run actions).batchState? 0 ≠ some .pending ∧
    (zipkin.run actions).batchState? 1 = some (.done (.ok ())) ∧
    "web" ∈ nameKeysOf [.of "web" ""] ∧ ¬ Stored (zipkin.history actions) "web" ∧
    ¬ zipkin.OkStores lateDrain 0 [.of "web" ""] := by
  refine ⟨zipkin_opened, ?_⟩
  intro actions
  have first : (zipkin.run actions).batchState? 0 ≠ some .pending := by decide +kernel
  have second : (zipkin.run actions).batchState? 1 = some (.done (.ok ())) := by decide +kernel
  have named : "web" ∈ nameKeysOf [.of "web" ""] := by decide +kernel
  have unstored : ¬ Stored (zipkin.history actions) "web" := by decide +kernel
  refine ⟨first, second, named, unstored, ?_⟩
  intro h
  have before : (zipkin.run actions).DoneBefore 0 1 := by
    apply doneBefore_of_state
    intro j hj
    obtain rfl : j = 0 := by omega
    exact first
  have count : (zipkin.run lateDrain).batches.length = 1 := by decide +kernel
  have stored := h [.observe 1]
  rw [count] at stored
  exact unstored (stored second before "web" named)

end Service

end TraceIndex
