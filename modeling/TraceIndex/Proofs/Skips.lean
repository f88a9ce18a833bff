import TraceIndex.Proofs.Acknowledged
import TraceIndex.Proofs.Fanout

namespace TraceIndex

/-- The hold that a write, known by its ticket, has on a mark of its worker. -/
structure Hold where
  worker : Nat
  ticket : Nat
  key : String
  deriving DecidableEq

inductive MarkEvent
  | started (hold : Hold) (window : Int) (statement : Except Failure Statement)
  | skipped (worker : Nat) (key : String) (window : Int)
  | kept (hold : Hold)
  | givenBack (hold : Hold)
  deriving DecidableEq

namespace MarkEvent

/-- A write is started for a key, or one of its writes gives the mark back. -/
def Shifts (worker : Nat) (key : String) : MarkEvent → Prop
  | started hold _ _ | givenBack hold => hold.worker = worker ∧ hold.key = key
  | skipped .. | kept _ => False

def isSkip : MarkEvent → Bool
  | skipped .. => true
  | _ => false

def ofWalk (worker : Nat) (window : Int) : Nat → List (Entry × Option Attempt) → List MarkEvent
  | _, [] => []
  | ticket, (e, none) :: rest =>
    e.mark?.toList.map (.skipped worker · window) ++ ofWalk worker window ticket rest
  | ticket, (_, some a) :: rest =>
    a.mark.toList.map (fun key => .started ⟨worker, ticket, key⟩ window a.statement) ++
      ofWalk worker window (ticket + 1) rest

end MarkEvent

def walkEvents (w : Writer) (now : Clock) (worker ticket : Nat) (entries : List Entry) (d : Desk) :
    List MarkEvent :=
  MarkEvent.ofWalk worker (Marks.windowAt d.marks.length now) ticket
    (entries.zip (Desk.attempts w now entries d).1)

def Flight.hold? (f : Flight) (worker : Nat) : Option Hold :=
  f.attempt.mark.map fun key => ⟨worker, f.ticket, key⟩

namespace Batch

def seenEvents (b : Batch) (f : Flight) : Except Failure Unit → List MarkEvent
  | .ok () => (f.hold? b.worker).toList.map .kept
  | .error _ => (f.hold? b.worker).toList.map .givenBack

def lookEvents (b : Batch) : List MarkEvent :=
  match b.scan.look? with
  | none => []
  | some (f, outcome, _) => b.seenEvents f outcome

def lossEvents (b : Batch) : List MarkEvent :=
  (b.outstanding.filterMap (·.hold? b.worker)).map .givenBack

/-- How a batch changes that is looked at or given up: each of its writes is still outstanding, or
it keeps its mark, or the mark is given back. -/
structure Shown (b b' : Batch) (keys : List String) (events : List MarkEvent) : Prop where
  seen : ∀ f ∈ b.outstanding, f ∈ b'.outstanding ∨
    (∀ hold, f.hold? b.worker = some hold → .kept hold ∈ events) ∨
    ∀ key, f.attempt.mark = some key → key ∈ keys
  shifts : ∀ e ∈ events, ∀ worker key, e.Shifts worker key → b.worker = worker ∧ key ∈ keys
  kept : ∀ hold, .kept hold ∈ events →
    ∃ f ∈ b.outstanding, f.attempt.mark = some hold.key ∧ f.outcome? = some (.ok ())

end Batch

namespace Service

variable {s t : Service}

def observeEvents (s : Service) (i : Nat) : List MarkEvent :=
  match s.batches[i]? with
  | none => []
  | some b => b.lookEvents

def dropEvents (s : Service) (i : Nat) : List MarkEvent :=
  match s.batches[i]? with
  | none => []
  | some b => if b.isPending then b.lossEvents else []

def observeUntilFailureEvents (i : Nat) : Nat → Service → List MarkEvent
  | 0, _ => []
  | n + 1, s =>
    if s.hasFailed i then [] else s.observeEvents i ++ observeUntilFailureEvents i n (s.observe i)

def leaveEvents (s : Service) (i : Nat) : List MarkEvent :=
  match s.batches[i]? with
  | none => []
  | some b => if b.failure.isSome then b.lossEvents else s.dropEvents i

def settleAloneEvents (s : Service) (i : Nat) : List MarkEvent :=
  observeUntilFailureEvents i (s.readyCount i) s ++
    (observeUntilFailure i (s.readyCount i) s).leaveEvents i

def acceptEvents (s : Service) (worker : Nat) (spans : List Span) : List MarkEvent :=
  match s.workers[worker]? with
  | none => []
  | some marks =>
    walkEvents s.writer s.clock worker s.issued (entriesOf spans) ⟨marks, s.buckets⟩

def markEvents (s : Service) : Action → List MarkEvent
  | .accept worker spans => s.acceptEvents worker spans
  | .observe i => s.observeEvents i
  | .drop i => s.dropEvents i
  | .settleAlone i => s.settleAloneEvents i
  | .hire | .advance .. | .resolve .. | .look _ | .setClock _ | .setFaults _ | .setOptions .. => []

def markHistory (s : Service) : List Action → List MarkEvent
  | [] => []
  | a :: rest => s.markEvents a ++ (s.act a).markHistory rest

def Holds (s : Service) (hold : Hold) : Prop :=
  ∃ f, s.Awaits hold.worker f ∧ f.hold? hold.worker = some hold

end Service

/-- The last write that a worker started for a key was sent, in this window, no write of the key has
given the mark back since, and that write holds the mark or kept it. -/
def Vouched (holds : Hold → Prop) (events : List MarkEvent) (worker : Nat) (key : String)
    (window : Int) : Prop :=
  ∃ past ticket st later,
    events = past ++ .started ⟨worker, ticket, key⟩ window (.ok st) :: later ∧
    st.mark? = some key ∧ (∀ e ∈ later, ¬ e.Shifts worker key) ∧
    (holds ⟨worker, ticket, key⟩ ∨ .kept ⟨worker, ticket, key⟩ ∈ later)

section Vouched

variable {holds holds' : Hold → Prop} {events more : List MarkEvent} {worker : Nat} {key : String}
  {window : Int}

theorem Vouched.append (h : Vouched holds events worker key window)
    (hmore : ∀ e ∈ more, ¬ e.Shifts worker key)
    (hholds : ∀ ticket, holds ⟨worker, ticket, key⟩ →
      holds' ⟨worker, ticket, key⟩ ∨ .kept ⟨worker, ticket, key⟩ ∈ more) :
    Vouched holds' (events ++ more) worker key window := by
  obtain ⟨past, ticket, st, later, rfl, hmark, hlater, hstands⟩ := h
  refine ⟨past, ticket, st, later ++ more, by simp, hmark, ?_, ?_⟩
  · intro e he
    obtain he | he := List.mem_append.mp he
    · exact hlater e he
    · exact hmore e he
  · obtain hheld | hkept := hstands
    · exact (hholds ticket hheld).imp_right (List.mem_append_right _)
    · exact .inr (List.mem_append_left _ hkept)

theorem Vouched.of_started {ticket : Nat} {st : Statement} (hmark : st.mark? = some key)
    (h : holds ⟨worker, ticket, key⟩) :
    Vouched holds (events ++ [.started ⟨worker, ticket, key⟩ window (.ok st)]) worker key window :=
  ⟨events, ticket, st, [], rfl, hmark, fun _ he => absurd he List.not_mem_nil, .inl h⟩

end Vouched

namespace Writer

theorem statement_of_mark (w : Writer) {e : Entry} (h : e.Filled) {key : String}
    (hkey : e.mark? = some key) (drawn : RandomBuckets) :
    ∃ st, (w.statement e drawn).1 = .ok st ∧ st.mark? = some key := by
  have hplan := (w.statement_plan h drawn).1
  rw [← e.plan_key? w] at hkey
  cases hp : e.plan w with
  | once other write =>
    cases hst : (w.statement e drawn).1 with
    | ok st => exact ⟨st, rfl, (statement_mark? hst).trans ((e.plan_key? w).symm.trans hkey)⟩
    | error failure =>
      rw [hp, hst] at hplan
      cases hplan
  | always | spread | refused =>
    rw [hp] at hkey
    cases hkey

end Writer

theorem Desk.length_attempts (w : Writer) (now : Clock) (entries : List Entry) (d : Desk) :
    (attempts w now entries d).1.length = entries.length := by
  induction entries generalizing d with
  | nil => rfl
  | cons e rest ih =>
    rw [attempts_cons, List.length_cons, List.length_cons, ih]

section Walk

variable {holds : Hold → Prop} {w : Writer} {now : Clock} {worker : Nat}

variable {e : Entry} {rest : List Entry} {d : Desk} {ticket : Nat} {key : String}

theorem walkEvents_of_mark_none (h : e.mark? = none) :
    walkEvents w now worker ticket (e :: rest) d =
      walkEvents w now worker (ticket + 1) rest
        { d with buckets := (w.statement e d.buckets).2 } := by
  rw [walkEvents, Desk.attempts_cons, Desk.attempt_of_mark_none h]
  simp only [List.zip_cons_cons, MarkEvent.ofWalk, h]
  rfl

theorem walkEvents_of_inForce (h : e.mark? = some key) (hk : d.marks.InForce now key) :
    walkEvents w now worker ticket (e :: rest) d =
      .skipped worker key (Marks.windowAt d.marks.length now) ::
        walkEvents w now worker ticket rest { d with marks := d.marks.refresh now } := by
  rw [walkEvents, Desk.attempts_cons, Desk.attempt_of_inForce h hk]
  simp only [List.zip_cons_cons, MarkEvent.ofWalk, h]
  rfl

theorem walkEvents_of_not_inForce (h : e.mark? = some key) (hk : ¬ d.marks.InForce now key) :
    walkEvents w now worker ticket (e :: rest) d =
      .started ⟨worker, ticket, key⟩ (Marks.windowAt d.marks.length now)
          (w.statement e d.buckets).1 ::
        walkEvents w now worker (ticket + 1) rest
          ⟨(d.marks.mark now key).2, (w.statement e d.buckets).2⟩ := by
  rw [walkEvents, Desk.attempts_cons, Desk.attempt_of_not_inForce h hk]
  simp only [List.zip_cons_cons, MarkEvent.ofWalk, h, walkEvents, Marks.mark_length]
  rfl

theorem skips_of_walk (entries : List Entry) (d : Desk) (ticket : Nat) :
    (walkEvents w now worker ticket entries d).countP MarkEvent.isSkip =
      (Desk.attempts w now entries d).1.countP Option.isNone := by
  induction entries generalizing d ticket with
  | nil => rfl
  | cons e rest ih =>
    rw [Desk.attempts_cons]
    cases hmark : e.mark? with
    | none => simp [walkEvents_of_mark_none hmark, Desk.attempt_of_mark_none hmark, ih]
    | some key =>
      by_cases hforce : d.marks.InForce now key
      · rw [walkEvents_of_inForce hmark hforce, Desk.attempt_of_inForce hmark hforce,
          List.countP_cons_of_pos rfl, List.countP_cons_of_pos rfl, ih]
      · simp [walkEvents_of_not_inForce hmark hforce, Desk.attempt_of_not_inForce hmark hforce, ih,
          MarkEvent.isSkip]

/-- All live keys of these marks are vouched for, in their window. -/
def AllVouched (holds : Hold → Prop) (past : List MarkEvent) (worker : Nat) (m : Marks) : Prop :=
  ∀ key, m.Live key → Vouched holds past worker key m.window

variable {past : List MarkEvent} {m : Marks}

theorem AllVouched.skip (h : AllVouched holds past worker m) (key : String) (window : Int) :
    AllVouched holds (past ++ [.skipped worker key window]) worker (m.refresh now) := by
  intro other hother
  have hin := (Marks.live_refresh ..).mp hother
  rw [hin.window]
  exact (h other hin.live).append (by simp [MarkEvent.Shifts]) fun _ => .inl

theorem AllVouched.start (now : Clock) (h : AllVouched holds past worker m) {st : Statement}
    (hmark : st.mark? = some key) (hholds : holds ⟨worker, ticket, key⟩) :
    AllVouched holds
      (past ++ [.started ⟨worker, ticket, key⟩ (Marks.windowAt m.length now) (.ok st)]) worker
      (m.mark now key).2 := by
  intro other hother
  rw [Marks.mark_window]
  by_cases heq : other = key
  · subst heq
    exact .of_started hmark hholds
  · have hin := ((Marks.live_mark ..).mp hother).resolve_left heq
    rw [← Marks.refresh_window, hin.window]
    apply (h other hin.live).append _ fun _ => .inl
    simpa [MarkEvent.Shifts] using Ne.symm heq

/-- While a worker walks over entries, each live key of its marks is vouched for; so is each key
that it skips. -/
theorem vouched_walk (entries : List Entry) (hfilled : ∀ e ∈ entries, e.Filled) (d : Desk)
    (past : List MarkEvent) (ticket : Nat) (hlive : AllVouched holds past worker d.marks)
    (hholds : ∀ hold window st,
      .started hold window st ∈ walkEvents w now worker ticket entries d → holds hold) :
    AllVouched holds (past ++ walkEvents w now worker ticket entries d) worker
      (Desk.attempts w now entries d).2.marks ∧
    ∀ before after other key window,
      walkEvents w now worker ticket entries d = before ++ .skipped other key window :: after →
      other = worker ∧ Vouched holds (past ++ before) worker key window := by
  induction entries generalizing d past ticket with
  | nil =>
    refine ⟨by simpa [Desk.attempts, walkEvents, MarkEvent.ofWalk] using hlive, ?_⟩
    intro before after other key window h
    simp [walkEvents, MarkEvent.ofWalk] at h
  | cons e rest ih =>
    obtain ⟨he, hrest⟩ := List.forall_mem_cons.mp hfilled
    rw [Desk.attempts_cons]
    cases hmark : e.mark? with
    | none =>
      rw [walkEvents_of_mark_none hmark] at hholds ⊢
      rw [Desk.attempt_of_mark_none hmark]
      exact ih hrest _ past (ticket + 1) hlive hholds
    | some key =>
      by_cases hforce : d.marks.InForce now key
      · -- A key that is skipped is live, and the events up to here vouch for it.
        rw [walkEvents_of_inForce hmark hforce] at hholds ⊢
        rw [Desk.attempt_of_inForce hmark hforce]
        obtain ⟨hend, hskips⟩ := ih hrest _ _ ticket (hlive.skip key _) fun hold window st h =>
          hholds hold window st (List.mem_cons_of_mem _ h)
        refine ⟨by simpa using hend, ?_⟩
        intro before after other key' window h
        cases before with
        | nil =>
          obtain ⟨⟨rfl, rfl, rfl⟩, -⟩ := by simpa using h
          rw [List.append_nil, ← Marks.refresh_window, hforce.window]
          exact ⟨rfl, hlive _ hforce.live⟩
        | cons first before =>
          obtain ⟨rfl, htail⟩ := List.cons.inj h
          simpa using hskips before after other key' window htail
      · -- From here on the write that is started vouches for its key.
        rw [walkEvents_of_not_inForce hmark hforce] at hholds ⊢
        rw [Desk.attempt_of_not_inForce hmark hforce]
        obtain ⟨st, hst, hkey⟩ := w.statement_of_mark he hmark d.buckets
        have hlive' := hlive.start now hkey (hholds _ _ _ List.mem_cons_self)
        rw [← hst] at hlive'
        obtain ⟨hend, hskips⟩ := ih hrest _ _ (ticket + 1) hlive' fun hold window st h =>
          hholds hold window st (List.mem_cons_of_mem _ h)
        refine ⟨by simpa using hend, ?_⟩
        intro before after other key' window h
        cases before with
        | nil => simp at h
        | cons first before =>
          obtain ⟨rfl, htail⟩ := List.cons.inj h
          simpa using hskips before after other key' window htail

end Walk

namespace MarkEvent

theorem attempt_of_started {worker : Nat} {window : Int} {ticket : Nat}
    {pairs : List (Entry × Option Attempt)} {hold : Hold} {at_ : Int}
    {st : Except Failure Statement} (h : .started hold at_ st ∈ ofWalk worker window ticket pairs) :
    hold.worker = worker ∧ ∃ (i : Nat) (a : Attempt), (pairs.filterMap (·.2))[i]? = some a ∧
      hold.ticket = ticket + i ∧ a.mark = some hold.key := by
  induction pairs generalizing ticket with
  | nil => simp [ofWalk] at h
  | cons pair pairs ih =>
    obtain ⟨e, a | a⟩ := pair
    · obtain h | h := List.mem_append.mp h
      · simp at h
      · exact ih h
    · obtain h | h := List.mem_append.mp h
      · obtain ⟨key, hkey, heq⟩ := List.mem_map.mp h
        cases heq
        exact ⟨rfl, 0, a, rfl, rfl, Option.mem_toList.mp hkey⟩
      · obtain ⟨hw, i, a', ha', hticket, hkey⟩ := ih h
        exact ⟨hw, i + 1, a', ha', by omega, hkey⟩

theorem worker_of_ofWalk {worker : Nat} {window : Int} {ticket : Nat}
    {pairs : List (Entry × Option Attempt)} {e : MarkEvent}
    (h : e ∈ ofWalk worker window ticket pairs) {w : Nat} {key : String}
    (hshifts : e.Shifts w key) : worker = w := by
  induction pairs generalizing ticket with
  | nil => simp [ofWalk] at h
  | cons pair pairs ih =>
    obtain ⟨e', a | a⟩ := pair
    · obtain h | h := List.mem_append.mp h
      · obtain ⟨key, -, rfl⟩ := List.mem_map.mp h
        cases hshifts
      · exact ih h
    · obtain h | h := List.mem_append.mp h
      · obtain ⟨key, -, rfl⟩ := List.mem_map.mp h
        exact hshifts.1
      · exact ih h

theorem not_kept_of_ofWalk {worker : Nat} {window : Int} {ticket : Nat}
    {pairs : List (Entry × Option Attempt)} (hold : Hold) :
    .kept hold ∉ ofWalk worker window ticket pairs := by
  induction pairs generalizing ticket with
  | nil => exact List.not_mem_nil
  | cons pair pairs ih =>
    obtain ⟨e, a | a⟩ := pair <;> simp [ofWalk, ih]

end MarkEvent

namespace Batch

variable {b : Batch}

theorem hold?_eq_some {f : Flight} {worker : Nat} {hold : Hold} :
    f.hold? worker = some hold ↔
      f.attempt.mark = some hold.key ∧ hold.worker = worker ∧ hold.ticket = f.ticket := by
  obtain ⟨w, ticket, key⟩ := hold
  simp only [Flight.hold?, Option.map_eq_some_iff, Hold.mk.injEq]
  constructor
  · rintro ⟨key', hkey, rfl, rfl, rfl⟩
    exact ⟨hkey, rfl, rfl⟩
  · rintro ⟨hkey, rfl, rfl⟩
    exact ⟨key, hkey, rfl, rfl, rfl⟩

theorem shown_of_mem {b' : Batch} (h : ∀ f, f ∈ b'.outstanding ↔ f ∈ b.outstanding) :
    b.Shown b' [] [] :=
  ⟨fun f hf => .inl ((h f).mpr hf), fun _ he => absurd he List.not_mem_nil,
    fun _ h => absurd h List.not_mem_nil⟩

theorem shown_look {f : Flight} {outcome : Except Failure Unit} {after : Batch}
    (h : b.scan.look? = some (f, outcome, after)) :
    b.Shown after (f.returned outcome) (b.seenEvents f outcome) := by
  obtain ⟨rest, hready, houtcome, hcase⟩ := look?_eq_some h
  have hleft : ∀ g, g ∈ b.outstanding ↔ g = f ∨ g ∈ after.outstanding := by
    intro g
    rw [← mem_scan]
    obtain ⟨-, rfl⟩ | ⟨failure, -, rfl⟩ := hcase
    · simp only [outstanding, hready, List.mem_append, List.mem_cons, or_assoc]
    · simp only [outstanding, hready, List.mem_append, List.mem_cons, or_assoc]
  have hf : f ∈ b.outstanding := (hleft f).mpr (.inl rfl)
  cases outcome with
  | ok =>
    refine ⟨?_, ?_, ?_⟩
    · intro g hg
      obtain rfl | hg := (hleft g).mp hg
      · refine .inr (.inl fun hold hhold => ?_)
        simp [seenEvents, hhold]
      · exact .inl hg
    · intro e he w key hshifts
      obtain ⟨hold, -, rfl⟩ := List.mem_map.mp he
      cases hshifts
    · intro hold hkept
      obtain ⟨hold', hhold', heq⟩ := List.mem_map.mp hkept
      cases heq
      exact ⟨f, hf, (hold?_eq_some.mp (Option.mem_toList.mp hhold')).1, houtcome⟩
  | error failure =>
    refine ⟨?_, ?_, ?_⟩
    · intro g hg
      obtain rfl | hg := (hleft g).mp hg
      · exact .inr (.inr fun key hkey => by simp [Flight.returned, hkey])
      · exact .inl hg
    · intro e he w key hshifts
      obtain ⟨hold, hhold, rfl⟩ := List.mem_map.mp he
      obtain ⟨hkey, hworker, -⟩ := hold?_eq_some.mp (Option.mem_toList.mp hhold)
      obtain ⟨rfl, rfl⟩ := hshifts
      exact ⟨hworker.symm, by simp [Flight.returned, hkey]⟩
    · intro hold hkept
      simp [seenEvents] at hkept

theorem shown_forget (b after : Batch) : b.Shown after b.marks b.lossEvents where
  seen f hf := .inr (.inr fun key hkey => List.mem_filterMap.mpr ⟨f, hf, hkey⟩)
  shifts _ he w key hshifts := by
    obtain ⟨hold, hhold, rfl⟩ := List.mem_map.mp he
    obtain ⟨f, hf, hf'⟩ := List.mem_filterMap.mp hhold
    obtain ⟨hkey, hworker, -⟩ := hold?_eq_some.mp hf'
    obtain ⟨rfl, rfl⟩ := hshifts
    exact ⟨hworker.symm, List.mem_filterMap.mpr ⟨f, hf, hkey⟩⟩
  kept _ hkept := by simp [lossEvents] at hkept

end Batch

namespace Service

variable {s t : Service} {past : List Report} {events : List MarkEvent}

theorem mem_flights_of_get {ticket i : Nat} {as : List Attempt} {a : Attempt}
    (h : as[i]? = some a) : s.flight (ticket + i) a ∈ s.flights ticket as := by
  induction as generalizing ticket i with
  | nil => cases h
  | cons a' as ih =>
    cases i with
    | zero =>
      cases h
      exact List.mem_cons_self
    | succ i =>
      rw [Nat.add_comm i, ← Nat.add_assoc]
      exact List.mem_cons_of_mem _ (ih h)

/-- What holds of a service after every run, given what was told of it and of its marks. -/
structure Standing (past : List Report) (events : List MarkEvent) (s : Service) : Prop where
  accounted : Accounted past s
  vouched : ∀ (worker : Nat) (m : Marks), s.workers[worker]? = some m →
    AllVouched s.Holds events worker m
  kept : ∀ hold, .kept hold ∈ events → Stored past hold.key

theorem Holds.of_awaits {worker ticket : Nat} {key : String}
    (h : ∀ f, s.Awaits worker f → t.Awaits worker f) (hs : s.Holds ⟨worker, ticket, key⟩) :
    t.Holds ⟨worker, ticket, key⟩ := by
  obtain ⟨f, hf, hhold⟩ := hs
  exact ⟨f, h f hf, hhold⟩

theorem standing_shown (hs : Standing past events s) {i : Nat} {b b' : Batch} {keys : List String}
    {shown : List MarkEvent} (hb : s.batches[i]? = some b) (hw : b'.worker = b.worker)
    (h : b.Shown b' keys shown) (ht : Accounted past t)
    (hworkers : t.workers = (s.revert b.worker keys).workers)
    (hbatches : t.batches = s.batches.set i b') : Standing past (events ++ shown) t where
  accounted := ht
  vouched worker m hm key hlive := by
    rw [hworkers] at hm
    obtain ⟨m₀, hm₀, hlive₀, hwindow, hback⟩ := live_revert hm hlive
    rw [← hwindow]
    apply (hs.vouched worker m₀ hm₀ key hlive₀).append
    · intro e he hshifts
      obtain ⟨hworker, hkey⟩ := h.shifts e he worker key hshifts
      exact hback hworker hkey
    · rintro ticket ⟨f, ⟨c, hc, hcw, hf⟩, hhold⟩
      obtain ⟨j, hj⟩ := List.mem_iff_getElem?.mp hc
      by_cases hij : i = j
      · subst j
        obtain rfl : b = c := Option.some.inj (hb.symm.trans hj)
        have hb' : b' ∈ t.batches := by
          rw [hbatches]
          exact List.mem_set (List.getElem?_eq_some_iff.mp hb).1 b'
        obtain hf | hkept | hgiven := h.seen f hf
        · exact .inl ⟨f, ⟨b', hb', hw.trans hcw, hf⟩, hhold⟩
        · exact .inr (hkept _ (hcw ▸ hhold))
        · exact absurd (hgiven key (Batch.hold?_eq_some.mp hhold).1) (hback hcw)
      · have hc' : c ∈ t.batches := by
          rw [hbatches]
          exact List.mem_of_getElem? ((List.getElem?_set_ne hij).trans hj)
        exact .inl ⟨f, ⟨c, hc', hcw, hf⟩, hhold⟩
  kept hold hkept := by
    obtain hkept | hkept := List.mem_append.mp hkept
    · exact hs.kept hold hkept
    · obtain ⟨f, hf, hkey, hok⟩ := h.kept hold hkept
      have hsound := hs.accounted.sound b.worker f ⟨b, List.mem_of_getElem? hb, rfl, hf⟩
      exact hsound.stored hok hold.key hkey

theorem standing_setBatch (hs : Standing past events s) {i : Nat} {b b' : Batch}
    (hb : s.batches[i]? = some b) (hw : b'.worker = b.worker)
    (h : ∀ f, f ∈ b'.outstanding ↔ f ∈ b.outstanding) (ht : Accounted past (s.setBatch i b')) :
    Standing past events (s.setBatch i b') := by
  have hstanding := standing_shown hs hb hw (Batch.shown_of_mem h) ht
    (by rw [revert_nil]; rfl) rfl
  rwa [List.append_nil] at hstanding

theorem standing_advance (hs : Standing past events s) (i place : Nat) :
    Standing past events (s.advance i place) := by
  have ht := accounted_preserved.tending (tending_advance s i place) hs.accounted
  cases hb : s.batches[i]? with
  | none =>
    simp only [advance, hb]
    exact hs
  | some b =>
    simp only [advance, hb] at ht ⊢
    exact standing_setBatch hs hb rfl (Batch.mem_advance place) ht

theorem standing_observe (hs : Standing past events s) (i : Nat) :
    Standing past (events ++ s.observeEvents i) (s.observe i) := by
  have ht := accounted_preserved.tending (tending_observe i s) hs.accounted
  cases hb : s.batches[i]? with
  | none =>
    simp only [observe, observeEvents, hb, List.append_nil]
    exact hs
  | some b =>
    cases hlook : b.scan.look? with
    | none =>
      simp only [observe, observeEvents, Batch.lookEvents, hb, hlook, List.append_nil] at ht ⊢
      exact standing_setBatch hs hb rfl Batch.mem_scan ht
    | some look =>
      obtain ⟨f, outcome, after⟩ := look
      obtain ⟨notices, metrics, hobserve⟩ := observe_of_look hb hlook
      simp only [observeEvents, Batch.lookEvents, hb, hlook]
      exact standing_shown hs hb (Batch.tended_look hlook).worker (Batch.shown_look hlook) ht
        (by rw [hobserve]) (by rw [hobserve])

theorem standing_forget (hs : Standing past events s) {i : Nat} {b b' : Batch}
    (hb : s.batches[i]? = some b) (hw : b'.worker = b.worker)
    (ho : b'.outstanding = b.outstanding) (ht : Accounted past (s.forget i b')) :
    Standing past (events ++ b.lossEvents) (s.forget i b') := by
  have hmarks : b'.marks = b.marks := by rw [Batch.marks, ho, Batch.marks]
  have hworker : b'.forget.worker = b.worker := hw
  exact standing_shown hs hb hworker (b.shown_forget b'.forget) ht (by rw [← hw, ← hmarks]; rfl) rfl

theorem standing_drop (hs : Standing past events s) (i : Nat) :
    Standing past (events ++ s.dropEvents i) (s.drop i) := by
  have ht := accounted_preserved.tending (tending_drop s i) hs.accounted
  cases hb : s.batches[i]? with
  | none =>
    simp only [drop, dropEvents, hb, List.append_nil]
    exact hs
  | some b =>
    simp only [drop, dropEvents, hb] at ht ⊢
    split at ht
    · rename_i hpending
      rw [if_pos hpending, if_pos hpending]
      exact standing_forget hs hb rfl rfl ht
    · rename_i hpending
      rw [if_neg hpending, if_neg hpending, List.append_nil]
      exact hs

theorem standing_observeUntilFailure (i n : Nat) (hs : Standing past events s) :
    Standing past (events ++ observeUntilFailureEvents i n s) (observeUntilFailure i n s) := by
  induction n generalizing s events with
  | zero => simpa [observeUntilFailure, observeUntilFailureEvents] using hs
  | succ n ih =>
    simp only [observeUntilFailure, observeUntilFailureEvents]
    split
    · rwa [List.append_nil]
    · rw [← List.append_assoc]
      exact ih (standing_observe hs i)

theorem standing_notify (hs : Standing past events s) (notices : List Notice) :
    Standing past events (s.notify notices) :=
  ⟨⟨hs.accounted.live, hs.accounted.sound, hs.accounted.ticketed.frame rfl rfl⟩, hs.vouched,
    hs.kept⟩

theorem standing_settleAlone (hs : Standing past events s) (i : Nat) :
    Standing past (events ++ s.settleAloneEvents i) (s.settleAlone i) := by
  have hlook := standing_observeUntilFailure i (s.readyCount i) hs
  rw [settleAloneEvents, ← List.append_assoc]
  simp only [settleAlone, leaveEvents]
  cases hb : (observeUntilFailure i (s.readyCount i) s).batches[i]? with
  | none => simpa using hlook
  | some b =>
    by_cases hfailed : b.failure.isSome
    · simp only [hfailed, ↓reduceIte]
      split
      · rename_i hempty
        simpa [Batch.lossEvents, List.isEmpty_iff.mp hempty] using hlook
      · have hnotified := standing_notify hlook [.undrained b.outstanding.length]
        have hforgotten := accounted_tends hnotified.accounted
          (tends_forget hb rfl rfl (.inl hfailed))
        exact standing_forget hnotified hb rfl rfl hforgotten
    · simp only [hfailed]
      exact standing_drop hlook i

section Accept

variable {worker : Nat} {marks : Marks} {spans : List Span}

theorem acceptEvents_eq (h : s.workers[worker]? = some marks) :
    s.acceptEvents worker spans =
      walkEvents s.writer s.clock worker s.issued (entriesOf spans) ⟨marks, s.buckets⟩ := by
  simp only [acceptEvents, h]

theorem skipped_foldl_countAttempt (as : List Attempt) (m : Metrics) :
    (as.foldl countAttempt m).dimensionWritesSkipped = m.dimensionWritesSkipped := by
  induction as generalizing m with
  | nil => rfl
  | cons a as ih =>
    rw [List.foldl_cons, ih]
    cases h : a.statement <;> simp [countAttempt, h]

/-- The skips that are told of are those that a service counts. -/
theorem skips_counted (h : s.workers[worker]? = some marks) :
    (s.accept worker spans).metrics.dimensionWritesSkipped =
      s.metrics.dimensionWritesSkipped +
        (s.acceptEvents worker spans).countP MarkEvent.isSkip := by
  rw [accept_eq h, acceptEvents_eq h, skips_of_walk, skipped_foldl_countAttempt]
  rfl

theorem walked (s : Service) (marks : Marks) (spans : List Span) :
    ((entriesOf spans).zip (s.walk marks spans).1).filterMap (·.2) = s.started marks spans := by
  have hlen : (s.walk marks spans).1.length = (entriesOf spans).length := Desk.length_attempts ..
  have hmap : ((entriesOf spans).zip (s.walk marks spans).1).map (·.2) = (s.walk marks spans).1 :=
    List.map_snd_zip (Nat.le_of_eq hlen)
  have hmade := congrArg (List.filterMap id) hmap
  rwa [List.filterMap_map] at hmade

theorem holds_of_started (h : s.workers[worker]? = some marks) {hold : Hold} {window : Int}
    {st : Except Failure Statement} (hst : .started hold window st ∈ s.acceptEvents worker spans) :
    (s.accept worker spans).Holds hold := by
  rw [acceptEvents_eq h] at hst
  obtain ⟨hw, i, a, ha, hticket, hkey⟩ := MarkEvent.attempt_of_started hst
  have ha' : (s.started marks spans)[i]? = some a := by
    rw [← walked]
    exact ha
  refine ⟨s.flight (s.issued + i) a,
    ⟨.ofFlights worker (s.flights s.issued (s.started marks spans)), ?_, hw.symm, ?_⟩, ?_⟩
  · rw [accept_batches h]
    exact List.mem_append_right _ List.mem_cons_self
  · exact List.mem_append_left _ (mem_flights_of_get ha')
  · exact Batch.hold?_eq_some.mpr ⟨hkey, rfl, hticket⟩

theorem allVouched_accept (h : s.workers[worker]? = some marks) (hs : Standing past events s) :
    AllVouched (s.accept worker spans).Holds (events ++ s.acceptEvents worker spans) worker
      (s.walk marks spans).2.marks ∧
    ∀ before after other key window,
      s.acceptEvents worker spans = before ++ .skipped other key window :: after →
      other = worker ∧
        Vouched (s.accept worker spans).Holds (events ++ before) worker key window := by
  rw [acceptEvents_eq h]
  apply vouched_walk
  · exact fun e he => filled_of_mem_entriesOf he
  · intro key hlive
    have hvouched := hs.vouched worker marks h key hlive
    rw [← List.append_nil events]
    apply hvouched.append (fun e he => absurd he List.not_mem_nil)
    exact fun ticket hheld => .inl (hheld.of_awaits fun _ hf => hf.accept h)
  · intro hold window st hst
    rw [← acceptEvents_eq h] at hst
    exact holds_of_started h hst

theorem standing_accept (h : s.workers[worker]? = some marks) (hs : Standing past events s) :
    Standing (past ++ s.reports (.accept worker spans)) (events ++ s.acceptEvents worker spans)
      (s.accept worker spans) where
  accounted := accounted_accept hs.accounted h
  vouched w m hm := by
    by_cases hw : w = worker
    · subst hw
      have hlt : w < s.workers.length := (List.getElem?_eq_some_iff.mp h).1
      rw [accept_eq h] at hm
      obtain rfl : (s.walk marks spans).2.marks = m := by simpa [readied, hlt] using hm
      exact (allVouched_accept h hs).1
    · have hm' : s.workers[w]? = some m := by
        rw [accept_eq h] at hm
        simpa [readied, List.getElem?_set_ne (Ne.symm hw)] using hm
      intro key hlive
      apply (hs.vouched w m hm' key hlive).append
      · intro e he hshifts
        rw [acceptEvents_eq h] at he
        exact hw (MarkEvent.worker_of_ofWalk he hshifts).symm
      · exact fun ticket hheld => .inl (hheld.of_awaits fun _ hf => hf.accept h)
  kept hold hkept := by
    obtain hkept | hkept := List.mem_append.mp hkept
    · exact (hs.kept hold hkept).append _
    · rw [acceptEvents_eq h] at hkept
      exact absurd hkept (MarkEvent.not_kept_of_ofWalk hold)

end Accept

theorem Standing.quiet (hs : Standing past events s)
    (hworkers : ∀ (worker : Nat) (m : Marks) (key : String), t.workers[worker]? = some m →
      m.Live key → ∃ m₀, s.workers[worker]? = some m₀ ∧ m₀.Live key ∧ m₀.window = m.window)
    (hholds : ∀ hold, s.Holds hold → t.Holds hold) {more : List Report}
    (ht : Accounted (past ++ more) t) : Standing (past ++ more) (events ++ []) t where
  accounted := ht
  vouched worker m hm key hlive := by
    obtain ⟨m₀, hm₀, hlive₀, hwindow⟩ := hworkers worker m key hm hlive
    rw [← hwindow]
    apply (hs.vouched worker m₀ hm₀ key hlive₀).append (fun e he => absurd he List.not_mem_nil)
    exact fun ticket hheld => .inl (hholds _ hheld)
  kept hold hkept := by
    rw [List.append_nil] at hkept
    exact (hs.kept hold hkept).append more

theorem Holds.resolve (fate : Fate) {h : Nat × Statement} (hh : s.heldUnder? h.1 = some h)
    {hold : Hold} (hs : s.Holds hold) : (s.resolveUnder fate h.1).Holds hold := by
  obtain ⟨f, ⟨b, hb, hw, hf⟩, hhold⟩ := hs
  rw [resolveUnder_of_some hh]
  obtain ⟨hattempt, hticket⟩ := Batch.answer_attempt h.1 (s.replyTo h.2 fate) f
  refine ⟨_, ⟨_, List.mem_map.mpr ⟨b, hb, rfl⟩, hw, (Batch.mem_reply _ _ _).mpr ⟨f, hf, rfl⟩⟩, ?_⟩
  rw [Flight.hold?, hattempt, hticket]
  exact hhold

theorem standing_act (hs : Standing past events s) (a : Action) :
    Standing (past ++ s.reports a) (events ++ s.markEvents a) (s.act a) := by
  have ht := accounted_preserved.act a hs.accounted
  have same : (s.act a).workers = s.workers → ∀ (worker : Nat) (m : Marks) (key : String),
      (s.act a).workers[worker]? = some m → m.Live key →
        ∃ m₀, s.workers[worker]? = some m₀ ∧ m₀.Live key ∧ m₀.window = m.window := by
    intro hworkers worker m key hm hlive
    exact ⟨m, hworkers ▸ hm, hlive, rfl⟩
  have tended : Tending s (s.act a) → s.reports a = s.replies a →
      Standing past (events ++ s.markEvents a) (s.act a) →
      Standing (past ++ s.reports a) (events ++ s.markEvents a) (s.act a) := by
    intro htending hreports h
    rwa [hreports, replies_of_tending htending, List.append_nil]
  cases a with
  | hire =>
    exact hs.quiet (fun w m key hm hlive => ⟨m, live_addWorker hm hlive, hlive, rfl⟩) (fun _ => id)
      ht
  | accept worker spans =>
    cases h : s.workers[worker]? with
    | none =>
      have hact : s.act (.accept worker spans) = s := accept_of_none h spans
      have hevents : s.markEvents (.accept worker spans) = [] := by
        simp only [markEvents, acceptEvents, h]
      rw [hevents]
      exact hs.quiet (same (by rw [hact])) (fun hold hheld => by rwa [hact]) ht
    | some marks => exact standing_accept h hs
  | advance i place =>
    apply tended (tending_advance s i place) rfl
    rw [markEvents, List.append_nil]
    exact standing_advance hs i place
  | observe i => exact tended (tending_observe i s) rfl (standing_observe hs i)
  | drop i => exact tended (tending_drop s i) rfl (standing_drop hs i)
  | settleAlone i => exact tended (tending_settleAlone s i) rfl (standing_settleAlone hs i)
  | resolve fate ticket =>
    cases h : s.heldUnder? ticket with
    | none =>
      have hact : s.act (.resolve fate ticket) = s := resolveUnder_of_none h fate
      exact hs.quiet (same (by rw [hact])) (fun hold hheld => by rwa [hact]) ht
    | some held =>
      obtain ⟨-, rfl⟩ := mem_held_of_heldUnder? h
      have hact := resolveUnder_of_some h fate
      exact hs.quiet (same (by rw [act, hact])) (fun hold => Holds.resolve fate h) ht
  | look worker => exact hs.quiet (fun w m key hm hlive => live_look hm hlive) (fun _ => id) ht
  | setClock | setFaults | setOptions => exact hs.quiet (same rfl) (fun _ => id) ht

theorem standing_opened {setup : Setup} (h : setup.openService = .ok s) : Standing [] [] s where
  accounted := accounted_opened h
  vouched worker m hm := by
    obtain ⟨schema, expiry, random, durations, rfl⟩ := Setup.openService_eq_ok h
    simp [Setup.service] at hm
  kept hold hkept := absurd hkept List.not_mem_nil

theorem standing_run (hs : Standing past events s) (actions : List Action) :
    Standing (past ++ s.history actions) (events ++ s.markHistory actions) (s.run actions) := by
  induction actions generalizing past events s with
  | nil => simpa [history, markHistory] using hs
  | cons a rest ih =>
    have hrest := ih (standing_act hs a)
    rwa [List.append_assoc, List.append_assoc] at hrest

/-- Whenever a worker skips a name after a run, it has started a write of the name in the window of
the skip, no write of the name was started or gave its mark back since, and that write still holds
the mark, or it kept it and its name is stored. -/
theorem skip_vouched (setup : Setup) (s : Service) (earlier : List Action) (worker : Nat)
    (spans : List Span) (before after : List MarkEvent) (other : Nat) (key : String)
    (window : Int) (opened : setup.openService = .ok s)
    (skips : (s.run earlier).markEvents (.accept worker spans) =
      before ++ .skipped other key window :: after) :
    other = worker ∧ ∃ past ticket st later,
      s.markHistory earlier ++ before =
        past ++ .started ⟨worker, ticket, key⟩ window (.ok st) :: later ∧
      st.mark? = some key ∧ (∀ e ∈ later, ¬ e.Shifts worker key) ∧
      (((s.run earlier).accept worker spans).Holds ⟨worker, ticket, key⟩ ∨
        .kept ⟨worker, ticket, key⟩ ∈ later ∧ Stored (s.history earlier) key) := by
  have hs : Standing (s.history earlier) (s.markHistory earlier) (s.run earlier) :=
    standing_run (standing_opened opened) earlier
  cases h : (s.run earlier).workers[worker]? with
  | none => simp [markEvents, acceptEvents, h] at skips
  | some marks =>
    obtain ⟨hworker, past, ticket, st, later, hsplit, hmark, hlater, hstands⟩ :=
      (allVouched_accept h hs).2 before after other key window skips
    refine ⟨hworker, past, ticket, st, later, hsplit, hmark, hlater, ?_⟩
    obtain hheld | hkept := hstands
    · exact .inl hheld
    · have hall : .kept ⟨worker, ticket, key⟩ ∈ s.markHistory earlier ++ before := by
        rw [hsplit]
        exact List.mem_append_right _ (List.mem_cons_of_mem _ hkept)
      refine .inr ⟨hkept, ?_⟩
      obtain hold | hnew := List.mem_append.mp hall
      · exact hs.kept _ hold
      · have hwalk := List.mem_append_left (.skipped other key window :: after) hnew
        rw [← skips, markEvents, acceptEvents_eq h] at hwalk
        exact absurd hwalk (MarkEvent.not_kept_of_ofWalk _)

theorem skip_vouched_web :
    let earlier : List Action := [.hire, .accept 0 [.of "web" ""], .observe 0, .observe 0]
    Setup.zipkin.openService = .ok zipkin ∧
    (zipkin.run earlier).markEvents (.accept 0 [.of "web" ""]) = [.skipped 0 "web" 0] ∧
    ∃ past ticket st later,
      zipkin.markHistory earlier ++ [] = past ++ .started ⟨0, ticket, "web"⟩ 0 (.ok st) :: later ∧
      st.mark? = some "web" ∧ (∀ e ∈ later, ¬ e.Shifts 0 "web") ∧
      (((zipkin.run earlier).accept 0 [.of "web" ""]).Holds ⟨0, ticket, "web"⟩ ∨
        .kept ⟨0, ticket, "web"⟩ ∈ later ∧ Stored (zipkin.history earlier) "web") := by
  intro earlier
  have skips :
      (zipkin.run earlier).markEvents (.accept 0 [.of "web" ""]) = [.skipped 0 "web" 0] := by
    decide +kernel
  exact ⟨zipkin_opened, skips,
    (skip_vouched _ zipkin earlier 0 _ [] [] 0 "web" 0 zipkin_opened skips).2⟩

end Service

end TraceIndex
