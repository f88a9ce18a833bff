import TraceIndex.Proofs.Dimensions
import TraceIndex.Proofs.Rows

namespace TraceIndex

namespace Span

def fact (s : Span) (bytes : Bytes) : Write :=
  ⟨.traces, [.bigint s.traceId.toInt64, .timestamp ⟨s.timestamp.getD 0⟩, .text s.uniquenessKey],
    [("span", .blob bytes)]⟩

/-- The rows that a normalized span makes known its names with, and is found by. -/
inductive Indexed (durations : DurationBuckets) (s : Span) : Write → Prop
  | service {service : String} (hs : service ∈ s.services) :
    Indexed durations s ⟨.serviceNames, [.text service], []⟩
  | spanName {service : String} (hs : service ∈ s.services) (hname : s.name ≠ "") :
    Indexed durations s ⟨.spanNames, [.text service, .int 0, .text s.name], []⟩
  | byService {service : String} {ts : Int64} (hs : service ∈ s.services)
    (ht : s.timestamp = some ts) (bucket : Int32) :
    Indexed durations s (s.leads .byService [.text service, .int bucket, .timestamp ⟨ts⟩])
  | bySpanName {service : String} {ts : Int64} (hs : service ∈ s.services) (hname : s.name ≠ "")
    (ht : s.timestamp = some ts) :
    Indexed durations s (s.leads .bySpanName [.text (service ++ "." ++ s.name), .timestamp ⟨ts⟩])
  | byDuration {service name : String} {ts duration : Int64} (hs : service ∈ s.services)
    (hname : name = s.name ∨ name = "") (ht : s.timestamp = some ts)
    (hd : s.duration = some duration) :
    Indexed durations s (s.leads .byDuration [.text service, .text name,
      .int (durations.bucket ts), .bigint duration, .timestamp ⟨ts⟩])
  | byAnnotationKey {key : String} {ts : Int64} (hkey : key ∈ s.annotationKeys)
    (ht : s.timestamp = some ts) (bucket : Int32) :
    Indexed durations s
      (s.leads .byAnnotationKey [.blob (Utf8.encode key), .int bucket, .timestamp ⟨ts⟩])

variable {w : Writer} {s : Span} {p : Plan} {buckets : RandomBuckets} {write : Write}

theorem fact_of_tracePlan (h : ((s.tracePlan w.codec).carryOut buckets).1 = .ok write) :
    ∃ bytes, w.codec.encode s = .ok bytes ∧ write = s.fact bytes := by
  simp only [tracePlan] at h
  cases hc : w.codec.encode s with
  | error failure =>
    rw [hc] at h
    cases h
  | ok bytes =>
    rw [hc] at h
    cases h
    exact ⟨bytes, rfl, rfl⟩

theorem indexed_of_durationPlans {service : String} {ts duration : Int64}
    (hs : service ∈ s.services) (ht : s.timestamp = some ts) (hd : s.duration = some duration)
    (hp : p ∈ s.durationPlans w.durations service ts duration)
    (h : (p.carryOut buckets).1 = .ok write) : s.Indexed w.durations write := by
  rw [durationPlans, List.mem_append, List.mem_singleton] at hp
  obtain rfl | hp := hp
  · cases h
    exact .byDuration hs (.inl rfl) ht hd
  · split at hp
    · cases hp
    · obtain rfl := List.mem_singleton.mp hp
      cases h
      exact .byDuration hs (.inr rfl) ht hd

theorem indexed_of_indexPlans {service : String} {ts : Int64} (hs : service ∈ s.services)
    (ht : s.timestamp = some ts) (hp : p ∈ s.indexPlans w.durations service ts)
    (h : (p.carryOut buckets).1 = .ok write) : s.Indexed w.durations write := by
  rw [indexPlans, List.mem_append, List.mem_append, List.mem_singleton] at hp
  obtain (rfl | hp) | hp := hp
  · cases h
    exact .byService hs ht _
  · split at hp
    · cases hp
    · rename_i hname
      obtain rfl := List.mem_singleton.mp hp
      cases h
      exact .bySpanName hs hname ht
  · cases hd : s.duration with
    | none =>
      rw [hd] at hp
      cases hp
    | some duration =>
      rw [hd] at hp
      exact indexed_of_durationPlans hs ht hd hp h

theorem indexed_of_servicePlans {service : String} (hs : service ∈ s.services)
    (hp : p ∈ s.servicePlans w.durations service) (h : (p.carryOut buckets).1 = .ok write) :
    s.Indexed w.durations write := by
  rw [servicePlans, List.mem_append, List.mem_append, List.mem_singleton] at hp
  obtain (rfl | hp) | hp := hp
  · cases h
    exact .service hs
  · split at hp
    · cases hp
    · rename_i hname
      obtain rfl := List.mem_singleton.mp hp
      cases h
      exact .spanName hs hname
  · cases ht : s.timestamp with
    | none =>
      rw [ht] at hp
      cases hp
    | some ts =>
      rw [ht] at hp
      exact indexed_of_indexPlans hs ht hp h

theorem indexed_of_keyPlan {key : String} {ts : Int64} (hkey : key ∈ s.annotationKeys)
    (ht : s.timestamp = some ts)
    (h : ((s.keyPlan w.keyLimit ts key).carryOut buckets).1 = .ok write) :
    s.Indexed w.durations write := by
  simp only [keyPlan] at h
  split at h
  · cases h
  · cases h
    exact .byAnnotationKey hkey ht _

theorem fact_or_indexed_of_plans (hp : p ∈ s.plans w) (h : (p.carryOut buckets).1 = .ok write) :
    (∃ bytes, w.codec.encode s = .ok bytes ∧ write = s.fact bytes) ∨
      s.Indexed w.durations write := by
  rw [plans, List.mem_append, List.mem_append, List.mem_singleton, List.mem_flatMap] at hp
  obtain (rfl | ⟨service, hs, hp⟩) | hp := hp
  · exact .inl (fact_of_tracePlan h)
  · exact .inr (indexed_of_servicePlans hs hp h)
  · cases ht : s.timestamp with
    | none =>
      rw [ht] at hp
      cases hp
    | some ts =>
      rw [ht] at hp
      obtain ⟨key, hkey, rfl⟩ := List.mem_map.mp hp
      exact .inr (indexed_of_keyPlan hkey ht h)

end Span

namespace Writer

variable {w : Writer} {e : Entry} {drawn : RandomBuckets} {st : Statement}

theorem write?_of_statement (h : e.Filled) (hst : (w.statement e drawn).1 = .ok st) :
    ∃ write, st.write? = some write ∧ ((e.plan w).carryOut drawn).1 = .ok write := by
  have hplan := (w.statement_plan h drawn).1
  rw [hst] at hplan
  cases hc : ((e.plan w).carryOut drawn).1 with
  | error failure =>
    rw [hc] at hplan
    cases hplan
  | ok write =>
    rw [hc] at hplan
    exact ⟨write, Except.ok.inj hplan, rfl⟩

theorem statement_of_carryOut {write : Write} (h : e.Filled)
    (hc : ((e.plan w).carryOut drawn).1 = .ok write) :
    ∃ st, (w.statement e drawn).1 = .ok st ∧ st.write? = some write := by
  have hplan := (w.statement_plan h drawn).1
  rw [hc] at hplan
  cases hst : (w.statement e drawn).1 with
  | error failure =>
    rw [hst] at hplan
    cases hplan
  | ok st =>
    rw [hst] at hplan
    exact ⟨st, rfl, Except.ok.inj hplan⟩

end Writer

namespace Span

/-- The statement stores the row of a span itself. -/
def StoredBy (w : Writer) (s : Span) (st : Statement) : Prop :=
  ∃ e ∈ s.normalize.entries, e.table = .traces ∧ ∃ drawn, (w.statement e drawn).1 = .ok st

variable {w : Writer} {s : Span} {st : Statement}

theorem table_ne_of_mem_indexEntries {service : String} {ts : Int64} {e : Entry}
    (he : e ∈ s.indexEntries service ts) : e.table ≠ .traces := by
  by_cases hname : s.isNamed <;> cases hd : s.duration <;>
    simp [indexEntries, hname, hd] at he <;>
    grind [Entry.table]

theorem table_ne_of_mem_serviceEntries {service : String} {e : Entry}
    (he : e ∈ s.serviceEntries service) : e.table ≠ .traces := by
  have hindex : ∀ ts, e ∈ s.indexEntries service ts → e.table ≠ .traces := fun _ =>
    s.table_ne_of_mem_indexEntries
  by_cases hname : s.isNamed <;> cases ht : s.timestamp <;>
    simp [serviceEntries, hname, ht] at he <;>
    grind [Entry.table]

theorem trace_of_mem_entries {e : Entry} (he : e ∈ s.entries) (ht : e.table = .traces) :
    e = .trace s s.storedTime s.uniquenessKey := by
  simp only [entries, List.mem_append, List.mem_singleton, List.mem_flatMap] at he
  obtain (rfl | ⟨service, -, he⟩) | hkey := he
  · rfl
  · exact absurd ht (s.table_ne_of_mem_serviceEntries he)
  · simp only [keyEntries] at hkey
    split at hkey
    · cases hkey
    · obtain ⟨key, -, rfl⟩ := List.mem_map.mp hkey
      cases ht

theorem StoredBy.primaryKey? (h : s.StoredBy w st) (bytes : Bytes) :
    st.primaryKey? = some (s.normalize.fact bytes).key := by
  obtain ⟨e, he, ht, drawn, hst⟩ := h
  obtain ⟨write, hwrite, hplan⟩ :=
    Writer.write?_of_statement (s.normalize.filled_of_mem_entries he) hst
  obtain rfl := trace_of_mem_entries he ht
  obtain ⟨_, -, rfl⟩ := fact_of_tracePlan hplan
  obtain ⟨key, hkey, heq⟩ := Option.map_eq_some_iff.mp hwrite
  exact hkey.trans (congrArg (fun write => some write.key) heq)

end Span

/-- Every write of the run is a span that was accepted, or gives values of one. -/
theorem Recorded.origin {w : Writer} {past : List Report} {st : Statement} {write : Write}
    (h : Recorded w past st) (hw : st.write? = some write) :
    ∃ span, .accepted span ∈ past ∧
      ((∃ bytes, w.codec.encode span.normalize = .ok bytes ∧ write = span.normalize.fact bytes) ∨
        span.normalize.Indexed w.durations write) := by
  obtain ⟨span, hspan, e, he, drawn, hst⟩ := h
  obtain ⟨write', hw', hc⟩ :=
    Writer.write?_of_statement (span.normalize.filled_of_mem_entries he) hst
  obtain rfl : write' = write := Option.some.inj (hw'.symm.trans hw)
  have hplan : e.plan w ∈ span.normalize.plans w := by
    rw [← Span.entries_plan]
    exact List.mem_map_of_mem he
  exact ⟨span, hspan, Span.fact_or_indexed_of_plans hplan hc⟩

namespace Service

variable {past : List Report} {s t : Service} {w : Writer}

theorem Traced.origin (hs : Traced w past s) {write : Write} (h : write ∈ written past) :
    ∃ span, .accepted span ∈ past ∧
      ((∃ bytes, w.codec.encode span.normalize = .ok bytes ∧ write = span.normalize.fact bytes) ∨
        span.normalize.Indexed w.durations write) := by
  obtain ⟨st, hst, hwrite⟩ := mem_written.mp h
  exact (hs.answered st _ hst).origin hwrite

theorem started_of_unmarked (marks : Marks) {spans : List Span} {e : Entry}
    (he : e ∈ entriesOf spans) (hmark : e.mark? = none) :
    ∃ drawn, ⟨(s.writer.statement e drawn).1, none⟩ ∈ s.started marks spans := by
  have hdue := mem_due_of_none (marks.refresh s.clock).marked he hmark
  obtain ⟨drawn, hdrawn⟩ := Desk.exists_draft s.writer hdue s.buckets
  refine ⟨drawn, ?_⟩
  rw [started, walk, (Desk.attempts_eq _ _ _ _).1, ← hmark]
  exact hdrawn

def Dispatched (w : Writer) (past : List Report) (s : Service) (e : Entry) : Prop :=
  ∃ drawn, ∀ st, (w.statement e drawn).1 = .ok st → Underway past s st

/-- Every entry without a mark of an accepted span was sent. -/
structure Delivered (w : Writer) (past : List Report) (s : Service) : Prop where
  writer : s.writer = w
  ticketed : s.Ticketed
  entries : ∀ span, .accepted span ∈ past → ∀ e ∈ span.normalize.entries, e.mark? = none →
    Dispatched w past s e

theorem Dispatched.mono {more : List Report} {e : Entry} (h : Dispatched w past s e)
    (hkeeps : Keeps s t more) : Dispatched w (past ++ more) t e := by
  obtain ⟨drawn, hst⟩ := h
  exact ⟨drawn, fun st hok => (hst st hok).mono hkeeps⟩

theorem Delivered.frame (hs : Delivered w past s) (hwriter : t.writer = s.writer)
    (hheld : t.held = s.held) (hissued : t.issued = s.issued) : Delivered w past t := by
  refine ⟨hwriter.trans hs.writer, hs.ticketed.frame hheld hissued, ?_⟩
  intro span hspan e he hmark
  obtain ⟨drawn, hst⟩ := hs.entries span hspan e he hmark
  exact ⟨drawn, fun st hok => by simpa only [Underway, hheld] using hst st hok⟩

theorem delivered_accept {worker : Nat} {marks : Marks} {spans : List Span}
    (h : s.workers[worker]? = some marks) (hs : Delivered w past s)
    (hfaultless : Faultless (s.reports (.accept worker spans))) :
    Delivered w (past ++ s.reports (.accept worker spans)) (s.accept worker spans) := by
  obtain rfl := hs.writer
  refine ⟨by rw [accept_eq h]; rfl, ticketed_accept h hs.ticketed, ?_⟩
  intro span hspan e he hmark
  obtain hspan | hspan := List.mem_append.mp hspan
  · exact (hs.entries span hspan e he hmark).mono (keeps_accept spans h _)
  · have hmem : span ∈ spans := by
      rw [reports_accept h] at hspan
      simpa using hspan
    have he' : e ∈ entriesOf spans := mem_entriesOf.mpr ⟨span, hmem, he⟩
    obtain ⟨drawn, hstarted⟩ := started_of_unmarked marks he' hmark
    refine ⟨drawn, fun st hst => ?_⟩
    exact underway_of_started h hfaultless hstarted (Attempt.sent?_eq_some.mpr hst)

theorem delivered_preserved (w : Writer) :
    Preserved fun past s => Faultless past → Delivered w past s where
  hire past s hs hfaultless := (hs hfaultless).frame rfl rfl rfl
  accept past s worker marks spans h hs hfaultless := by
    obtain ⟨hpast, hnew⟩ := faultless_append.mp hfaultless
    exact delivered_accept h (hs hpast) hnew
  tends past s t h hs hfaultless := by
    have hwriter : t.writer = s.writer := by
      obtain ⟨_, _, _, _, _, _, -, -, rfl⟩ := h
      rfl
    exact (hs hfaultless).frame hwriter h.frame.1 h.frame.2.1
  resolve past s fate h hh hs hfaultless := by
    obtain ⟨hpast, hnew⟩ := faultless_append.mp hfaultless
    have hs := hs hpast
    have hok := hnew.reply_ok (List.mem_singleton_self _)
    refine ⟨?_, ticketed_resolve hs.ticketed fate hh, ?_⟩
    · rw [resolveUnder_of_some hh]
      exact hs.writer
    · intro span hspan e he hmark
      obtain hspan | hspan := List.mem_append.mp hspan
      · exact (hs.entries span hspan e he hmark).mono (keeps_resolve hs.ticketed fate hh hok)
      · cases List.mem_singleton.mp hspan
  look past s worker hs hfaultless := (hs hfaultless).frame rfl rfl rfl
  set past s clock faults options hs hfaultless := (hs hfaultless).frame rfl rfl rfl

def clear (s : Service) : Service := { s with store := s.store.clear }

/-- Runs one after the other. After each of them the store is cleared. -/
def through (s : Service) (periods : List (List Action)) : Service :=
  periods.foldl (fun s actions => (s.run actions).clear) s

def historyThrough (s : Service) : List (List Action) → List Report
  | [] => []
  | actions :: periods => s.history actions ++ (s.run actions).clear.historyThrough periods

theorem rows_through {periods : List (List Action)} {t : Table} {row : Row}
    (h : row ∈ (s.through periods).store.rows.get t) :
    periods = [] ∧ row ∈ s.store.rows.get t := by
  obtain rfl | ⟨periods, actions, rfl⟩ := periods.eq_nil_or_concat'
  · exact ⟨rfl, h⟩
  · rw [through, List.foldl_append] at h
    simp only [List.foldl_cons, List.foldl_nil, clear, Keyspace.clear] at h
    exact absurd h Keyspace.not_mem_noRows

theorem Preserved.through {P : List Report → Service → Prop} (hP : Preserved P)
    (hclear : ∀ past s, P past s → P past s.clear) (hs : P past s)
    (periods : List (List Action)) : P (past ++ s.historyThrough periods) (s.through periods) := by
  induction periods generalizing past s with
  | nil => simpa [historyThrough, Service.through] using hs
  | cons actions periods ih =>
    have hrest := ih (hclear _ _ (hP.run hs actions))
    rwa [List.append_assoc] at hrest

theorem traced_through (hs : Traced w past s) (periods : List (List Action)) :
    Traced w (past ++ s.historyThrough periods) (s.through periods) :=
  (traced_preserved w).through (fun _ _ hs => ⟨hs.writer, hs.answered, hs.held⟩) hs periods

theorem ticketed_through (hs : s.Ticketed) (periods : List (List Action)) :
    (s.through periods).Ticketed :=
  @Preserved.through [] s _ ticketed_preserved (fun _ _ hs => hs.frame rfl rfl) hs periods

theorem written_of_entry (hs : Delivered w past s) (hheld : s.held = []) {span : Span}
    (hspan : .accepted span ∈ past) {e : Entry} (he : e ∈ span.normalize.entries)
    (hmark : e.mark? = none) :
    ∃ drawn, ∀ write, ((e.plan w).carryOut drawn).1 = .ok write → write ∈ written past := by
  obtain ⟨drawn, hdrawn⟩ := hs.entries span hspan e he hmark
  refine ⟨drawn, fun write hplan => ?_⟩
  obtain ⟨st, hst, hwrite⟩ :=
    Writer.statement_of_carryOut (span.normalize.filled_of_mem_entries he) hplan
  obtain hanswered | ⟨g, hg, -⟩ := hdrawn st hst
  · exact mem_written.mpr ⟨st, hanswered, hwrite⟩
  · rw [hheld] at hg
    cases hg

theorem fact_written (hs : Delivered w past s) (hheld : s.held = []) {span : Span}
    (hspan : .accepted span ∈ past) {bytes : Bytes}
    (hbytes : w.codec.encode span.normalize = .ok bytes) :
    span.normalize.fact bytes ∈ written past := by
  have htrace : Entry.trace span.normalize span.normalize.storedTime
      span.normalize.uniquenessKey ∈ span.normalize.entries := by
    simp [Span.entries]
  obtain ⟨drawn, hwritten⟩ := written_of_entry hs hheld hspan htrace rfl
  apply hwritten
  simp only [Entry.plan, hbytes]
  rfl

theorem left_of_written {write : Write} (h : write ∈ written past) :
    Left past write.table write.key := by
  obtain ⟨st, hst, hwrite⟩ := mem_written.mp h
  obtain ⟨key, hkey, rfl⟩ := Option.map_eq_some_iff.mp hwrite
  exact ⟨st, hst, rfl, hkey⟩

end Service

namespace Span

theorem Indexed.columns {durations : DurationBuckets} {s : Span} {t : Table} {row : Row}
    (h : s.Indexed durations (.ofRow t row)) {id ts : Cell}
    (hid : row.column? t "trace_id" = some id) (hts : row.column? t "ts" = some ts) :
    id = .bigint s.traceId.toInt64 ∧ ∃ time, s.timestamp = some time ∧ ts = .timestamp ⟨time⟩ := by
  obtain ⟨key, payload, ttl⟩ := row
  generalize hw : Write.ofRow t ⟨key, payload, ttl⟩ = write at h
  cases h with
  | service | spanName =>
    cases hw
    cases hid
  | byService hs ht | bySpanName hs hname ht | byDuration hs hname ht | byAnnotationKey hkey ht =>
    cases hw
    cases hid
    cases hts
    exact ⟨rfl, _, ht, rfl⟩

end Span

namespace Service

/-- Every row of the tables of names and of the tables that lead to spans gives values of one span
that was accepted, whatever failed, was given up or was cleared away. If nothing failed in the last
period, nothing was held back before it and nothing is after it, each row that leads to a span
stands beside the row of a span with its trace and time. -/
theorem rows_derived (setup : Setup) (s : Service) (periods : List (List Action))
    (actions : List Action) (opened : setup.openService = .ok s) :
    (∀ t, t ≠ .traces → ∀ row ∈ ((s.through periods).run actions).store.rows.get t,
      (periods = [] ∧ row ∈ setup.store.rows.get t) ∨
        ∃ span, .accepted span ∈ s.historyThrough periods ++ (s.through periods).history actions ∧
          span.normalize.Indexed s.writer.durations (.ofRow t row)) ∧
    ((s.through periods).held = [] → ((s.through periods).run actions).held = [] →
      Faultless ((s.through periods).history actions) →
      (∀ span, .accepted span ∈ (s.through periods).history actions →
        ∃ bytes, s.writer.codec.encode span.normalize = .ok bytes) →
      ∀ t, t ≠ .traces → ∀ row ∈ ((s.through periods).run actions).store.rows.get t,
        ¬ (periods = [] ∧ row ∈ setup.store.rows.get t) →
        ∀ id ts, row.column? t "trace_id" = some id → row.column? t "ts" = some ts →
          ∃ fact ∈ ((s.through periods).run actions).store.rows.get .traces, ∃ key,
            fact.key = [id, ts, key]) := by
  let start := s.through periods
  have htraced : Traced s.writer (s.historyThrough periods) start :=
    traced_through (traced_opened opened) periods
  have hrows := @Preserved.run start _ [] (rows_preserved start.store.rows)
    (fun t row hrow => .inl hrow) actions
  have hold : ∀ t, ∀ row ∈ start.store.rows.get t,
      periods = [] ∧ row ∈ setup.store.rows.get t := by
    intro t row hrow
    obtain ⟨hperiods, hrow⟩ := rows_through hrow
    obtain ⟨_, _, _, _, rfl⟩ := Setup.openService_eq_ok opened
    exact ⟨hperiods, hrow⟩
  constructor
  · intro t ht row hrow
    obtain hrow | hwritten := hrows t row hrow
    · exact .inl (hold t row hrow)
    · have hall := (traced_preserved s.writer).run htraced actions
      have hwritten :
          .ofRow t row ∈ written (s.historyThrough periods ++ start.history actions) := by
        rw [written_append]
        exact List.mem_append_right _ hwritten
      obtain ⟨span, hspan, ⟨bytes, -, hfact⟩ | hindexed⟩ := hall.origin hwritten
      · exact absurd (congrArg Write.table hfact) ht
      · exact .inr ⟨span, hspan, hindexed⟩
  · intro hbefore hafter hfaultless hencoded t ht row hrow hnew id ts hid hts
    have hwritten := (hrows t row hrow).resolve_left fun h => hnew (hold t row h)
    -- The fact must have been written after the last clearing, so the history begins anew there.
    have hlast : Traced s.writer (start.history actions) (start.run actions) := by
      refine @Preserved.run start _ [] (traced_preserved s.writer) ⟨htraced.writer, ?_, ?_⟩ actions
      · exact fun st r hr => absurd hr List.not_mem_nil
      · exact fun g hg => absurd (hbefore ▸ hg) List.not_mem_nil
    have hdelivered : Delivered s.writer (start.history actions) (start.run actions) := by
      refine @Preserved.run start _ [] (delivered_preserved s.writer) ?_ actions hfaultless
      intro _
      refine ⟨htraced.writer, ticketed_through (ticketed_opened opened) periods, ?_⟩
      exact fun span hspan => absurd hspan List.not_mem_nil
    have hkeys := @Preserved.run start _ [] (keys_preserved start.store.keys)
      (fun t key => by simp [Left]) actions
    obtain ⟨span, hspan, ⟨bytes, -, hfact⟩ | hindexed⟩ := hlast.origin hwritten
    · exact absurd (congrArg Write.table hfact) ht
    · obtain ⟨rfl, time, htime, rfl⟩ := hindexed.columns hid hts
      obtain ⟨bytes, hbytes⟩ := hencoded span hspan
      have hleft := left_of_written (fact_written hdelivered hafter hspan hbytes)
      have hkey := (hkeys .traces _).mpr (.inr hleft)
      obtain ⟨fact, hfact, hfactkey⟩ := List.mem_map.mp hkey
      refine ⟨fact, hfact, .text span.normalize.uniquenessKey, ?_⟩
      rw [hfactkey, Span.fact, htime]
      rfl

theorem rows_derived_web :
    let span : Span := { Span.of "web" "get" with timestamp := some 1, duration := some 2 }
    let start := zipkin.through [[.hire, .accept 0 [span]]]
    Setup.zipkin.openService = .ok zipkin ∧
    (start.held = [] ∧ (start.run [.accept 0 [span]]).held = [] ∧
      Faultless (start.history [.accept 0 [span]]) ∧
      ∀ span', .accepted span' ∈ start.history [.accept 0 [span]] →
        ∃ bytes, zipkin.writer.codec.encode span'.normalize = .ok bytes) ∧
    ((start.run [.accept 0 [span]]).store.rows.get .byDuration).length = 2 ∧
    ∀ t, t ≠ .traces → ∀ row ∈ (start.run [.accept 0 [span]]).store.rows.get t,
      ∀ id ts, row.column? t "trace_id" = some id → row.column? t "ts" = some ts →
        ∃ fact ∈ (start.run [.accept 0 [span]]).store.rows.get .traces, ∃ key,
          fact.key = [id, ts, key] := by
  intro span start
  have before : start.held = [] := by decide +kernel
  have after : (start.run [.accept 0 [span]]).held = [] := by decide +kernel
  have faultless : Faultless (start.history [.accept 0 [span]]) := by decide +kernel
  have found : ((start.run [.accept 0 [span]]).store.rows.get .byDuration).length = 2 := by
    decide +kernel
  have encoded : ∀ span', .accepted span' ∈ start.history [.accept 0 [span]] →
      ∃ bytes, zipkin.writer.codec.encode span'.normalize = .ok bytes :=
    fun span' _ => ⟨_, rfl⟩
  refine ⟨zipkin_opened, ⟨before, after, faultless, encoded⟩, found, ?_⟩
  intro t ht row hrow id ts hid hts
  exact (rows_derived _ zipkin [[.hire, .accept 0 [span]]] [.accept 0 [span]] zipkin_opened).2
    before after faultless encoded t ht row hrow (fun h => List.cons_ne_nil _ _ h.1) id ts hid hts

end Service

end TraceIndex
