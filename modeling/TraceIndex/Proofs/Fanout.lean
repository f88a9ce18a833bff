import TraceIndex.Proofs.Launch

namespace TraceIndex

structure Write where
  table : Table
  key : List Cell
  payload : List (String × Cell)
  deriving DecidableEq, Repr

def Statement.write? (st : Statement) : Option Write :=
  st.primaryKey?.map fun key => ⟨st.table, key, st.payload⟩

/-- A write that is called for: in any case, once for a key, in a random bucket, or refused before
it is sent. -/
inductive Plan
  | always (write : Write)
  | once (key : String) (write : Write)
  | spread (write : Int32 → Write)
  | refused (failure : Failure)

namespace Plan

def key? : Plan → Option String
  | once key _ => some key
  | _ => none

def carryOut : Plan → RandomBuckets → Except Failure Write × RandomBuckets
  | always write, buckets | once _ write, buckets => (.ok write, buckets)
  | spread write, buckets => (.ok (write buckets.draw.1), buckets.draw.2)
  | refused failure, buckets => (.error failure, buckets)

def outcomes : List Plan → RandomBuckets → List (Except Failure Write)
  | [], _ => []
  | p :: rest, buckets => (p.carryOut buckets).1 :: outcomes rest (p.carryOut buckets).2

end Plan

namespace Span

def leads (s : Span) (table : Table) (key : List Cell) : Write :=
  ⟨table, key, [("trace_id", .bigint s.traceId.toInt64)]⟩

def tracePlan (codec : Codec) (s : Span) : Plan :=
  match codec.encode s with
  | .error failure => .refused failure
  | .ok bytes => .always ⟨.traces, [.bigint s.traceId.toInt64, .timestamp ⟨s.timestamp.getD 0⟩,
      .text s.uniquenessKey], [("span", .blob bytes)]⟩

def durationPlans (durations : DurationBuckets) (s : Span) (service : String)
    (ts duration : Int64) : List Plan :=
  let row (name : String) := s.leads .byDuration [.text service, .text name,
    .int (durations.bucket ts), .bigint duration, .timestamp ⟨ts⟩]
  [.always (row s.name)] ++ if s.name = "" then [] else [.always (row "")]

def indexPlans (durations : DurationBuckets) (s : Span) (service : String) (ts : Int64) :
    List Plan :=
  [.spread fun bucket => s.leads .byService [.text service, .int bucket, .timestamp ⟨ts⟩]] ++
    (if s.name = "" then [] else [.always (s.leads .bySpanName
      [.text (service ++ "." ++ s.name), .timestamp ⟨ts⟩])]) ++
    match s.duration with
    | none => []
    | some duration => s.durationPlans durations service ts duration

def servicePlans (durations : DurationBuckets) (s : Span) (service : String) : List Plan :=
  [.once (Marks.serviceKey service) ⟨.serviceNames, [.text service], []⟩] ++
    (if s.name = "" then [] else [.once (Marks.spanNameKey service s.name)
      ⟨.spanNames, [.text service, .int 0, .text s.name], []⟩]) ++
    match s.timestamp with
    | none => []
    | some ts => s.indexPlans durations service ts

/-- A key of more bytes than the limit is refused, and draws no bucket. -/
def keyPlan (limit : UInt64) (s : Span) (ts : Int64) (key : String) : Plan :=
  let bytes := Utf8.encode key
  if limit.toNat < bytes.length then .refused (.valueTooLarge bytes.length limit.toNat)
  else .spread fun bucket =>
    s.leads .byAnnotationKey [.blob bytes, .int bucket, .timestamp ⟨ts⟩]

def plans (w : Writer) (s : Span) : List Plan :=
  [s.tracePlan w.codec] ++ s.services.flatMap (s.servicePlans w.durations) ++
    match s.timestamp with
    | none => []
    | some ts => s.annotationKeys.map (s.keyPlan w.keyLimit ts)

end Span

namespace Entry

def plan (w : Writer) : Entry → Plan
  | trace s ts key =>
    match w.codec.encode s with
    | .error failure => .refused failure
    | .ok bytes => .always ⟨.traces, [.bigint s.traceId.toInt64, .timestamp ⟨ts⟩, .text key],
        [("span", .blob bytes)]⟩
  | serviceName service =>
    .once (Marks.serviceKey service) ⟨.serviceNames, [.text service], []⟩
  | spanName service name =>
    .once (Marks.spanNameKey service name) ⟨.spanNames, [.text service, .int 0, .text name], []⟩
  | byService service ts id => .spread fun bucket =>
    ⟨.byService, [.text service, .int bucket, .timestamp ⟨ts⟩], [("trace_id", .bigint id.toInt64)]⟩
  | bySpanName service name ts id => .always
    ⟨.bySpanName, [.text (service ++ "." ++ name), .timestamp ⟨ts⟩],
      [("trace_id", .bigint id.toInt64)]⟩
  | byAnnotationKey key ts id =>
    let bytes := Utf8.encode key
    if w.keyLimit.toNat < bytes.length then
      .refused (.valueTooLarge bytes.length w.keyLimit.toNat)
    else .spread fun bucket => ⟨.byAnnotationKey, [.blob bytes, .int bucket, .timestamp ⟨ts⟩],
      [("trace_id", .bigint id.toInt64)]⟩
  | byDuration service name ts duration id => .always
    ⟨.byDuration, [.text service, .text name, .int (w.durations.bucket ts), .bigint duration,
      .timestamp ⟨ts⟩], [("trace_id", .bigint id.toInt64)]⟩

def Filled : Entry → Prop
  | serviceName service | byService service .. | byDuration service .. => service ≠ ""
  | spanName service name | bySpanName service name .. => service ≠ "" ∧ name ≠ ""
  | trace .. | byAnnotationKey .. => True

theorem plan_key? (w : Writer) (e : Entry) : (e.plan w).key? = e.mark? := by
  cases e with
  | trace s ts key => cases h : w.codec.encode s <;> simp [plan, Plan.key?, mark?, h]
  | byAnnotationKey key ts id =>
    simp only [plan, mark?]
    split <;> rfl
  | serviceName | spanName | byService | bySpanName | byDuration => rfl

end Entry

namespace Span

variable (w : Writer) (s : Span)

theorem indexEntries_plan (service : String) (ts : Int64) :
    (s.indexEntries service ts).map (Entry.plan w) = s.indexPlans w.durations service ts := by
  by_cases hname : s.name = "" <;> cases hd : s.duration <;>
    simp [indexEntries, indexPlans, isNamed, durationPlans, Entry.plan, leads, hname, hd]

theorem serviceEntries_plan (service : String) :
    (s.serviceEntries service).map (Entry.plan w) = s.servicePlans w.durations service := by
  by_cases hname : s.name = "" <;> cases ht : s.timestamp <;>
    simp [serviceEntries, servicePlans, isNamed, Entry.plan, hname, ht, indexEntries_plan]

theorem keyEntries_plan :
    s.keyEntries.map (Entry.plan w) =
      match s.timestamp with
      | none => []
      | some ts => s.annotationKeys.map (s.keyPlan w.keyLimit ts) := by
  cases ht : s.timestamp with
  | none => simp [keyEntries, ht]
  | some ts =>
    simp only [keyEntries, ht, List.map_map]
    rfl

theorem entries_plan : s.entries.map (Entry.plan w) = s.plans w := by
  have hservice : (s.services.flatMap s.serviceEntries).map (Entry.plan w) =
      s.services.flatMap (s.servicePlans w.durations) := by
    rw [List.map_flatMap]
    apply congrArg (List.flatMap · s.services)
    funext service
    exact s.serviceEntries_plan w service
  rw [entries, List.map_append, List.map_append, hservice, keyEntries_plan]
  rfl

theorem mem_dropRepeats {l : List String} {a : String} (h : a ∈ dropRepeats l) : a ∈ l := by
  fun_induction dropRepeats l with
  | case1 b rest ih => exact List.mem_cons_of_mem _ (ih h)
  | case2 b c rest _ ih =>
    obtain rfl | h := List.mem_cons.mp h
    · exact List.mem_cons_self
    · exact List.mem_cons_of_mem _ (ih h)
  | case3 => exact h

theorem service?_ne_empty {e : Endpoint} {service : String} (h : e.service? = some service) :
    service ≠ "" := by
  simp only [Endpoint.service?] at h
  split at h
  · cases h
  · rename_i hname
    cases h
    simpa using hname

theorem ne_empty_of_mem_services {service : String} (h : service ∈ s.services) : service ≠ "" := by
  obtain ⟨e, -, he⟩ := List.mem_filterMap.mp (List.mem_mergeSort.mp (mem_dropRepeats h))
  exact service?_ne_empty he

theorem filled_of_mem_indexEntries {service : String} (hs : service ≠ "") {ts : Int64} {e : Entry}
    (h : e ∈ s.indexEntries service ts) : e.Filled := by
  by_cases hname : s.name = "" <;> cases hd : s.duration <;>
    simp [indexEntries, isNamed, hname, hd] at h <;>
    grind [Entry.Filled]

theorem filled_of_mem_serviceEntries {service : String} (hs : service ≠ "") {e : Entry}
    (h : e ∈ s.serviceEntries service) : e.Filled := by
  have hindex : ∀ ts, e ∈ s.indexEntries service ts → e.Filled := fun _ he =>
    s.filled_of_mem_indexEntries hs he
  by_cases hname : s.name = "" <;> cases ht : s.timestamp <;>
    simp [serviceEntries, isNamed, hname, ht] at h <;>
    grind [Entry.Filled]

theorem filled_of_mem_entries {e : Entry} (h : e ∈ s.entries) : e.Filled := by
  simp only [entries, List.mem_append, List.mem_singleton, List.mem_flatMap] at h
  obtain (rfl | ⟨service, hservice, he⟩) | hkey := h
  · trivial
  · exact s.filled_of_mem_serviceEntries (s.ne_empty_of_mem_services hservice) he
  · simp only [keyEntries] at hkey
    split at hkey
    · simp at hkey
    · obtain ⟨key, -, rfl⟩ := List.mem_map.mp hkey
      trivial

end Span

namespace Writer

variable (w : Writer)

theorem required_eq_ok {field value : String} (h : value ≠ "") : required field value = .ok () := by
  simp [required, h]

theorem statement_plan {e : Entry} (h : e.Filled) (buckets : RandomBuckets) :
    (w.statement e buckets).1.map Statement.write? =
        ((e.plan w).carryOut buckets).1.map some ∧
      (w.statement e buckets).2 = ((e.plan w).carryOut buckets).2 := by
  cases e with
  | trace s ts key =>
    cases hc : w.codec.encode s with
    | error failure =>
      have hcells : w.cells (.trace s ts key) = .error failure := by simp only [cells, hc]; rfl
      simp only [statement, hcells, Entry.plan, hc]
      exact ⟨rfl, rfl⟩
    | ok bytes =>
      simp only [statement, cells, hc, Entry.plan]
      exact ⟨rfl, rfl⟩
  | serviceName service =>
    have hs : required "service_name" service = .ok () := required_eq_ok h
    simp only [statement, cells, hs]
    exact ⟨rfl, rfl⟩
  | spanName service name =>
    have hs : required "service_name" service = .ok () := required_eq_ok h.1
    have hn : required "span_name" name = .ok () := required_eq_ok h.2
    simp only [statement, cells, hs, hn]
    exact ⟨rfl, rfl⟩
  | byService service ts id =>
    have hs : required "service_name" service = .ok () := required_eq_ok h
    simp only [statement, cells, hs]
    exact ⟨rfl, rfl⟩
  | bySpanName service name ts id =>
    have hs : required "service_name" service = .ok () := required_eq_ok h.1
    have hn : required "span_name" name = .ok () := required_eq_ok h.2
    simp only [statement, cells, hs, hn]
    exact ⟨rfl, rfl⟩
  | byAnnotationKey key ts id =>
    by_cases hl : w.keyLimit.toNat < (Utf8.encode key).length
    · simp only [statement, cells, hl, Entry.plan, ↓reduceIte]
      exact ⟨rfl, rfl⟩
    · simp only [statement, cells, hl, Entry.plan, ↓reduceIte]
      exact ⟨rfl, rfl⟩
  | byDuration service name ts duration id =>
    have hs : required "service_name" service = .ok () := required_eq_ok h
    simp only [statement, cells, hs]
    exact ⟨rfl, rfl⟩

theorem drafts_outcomes {entries : List Entry} (h : ∀ e ∈ entries, e.Filled)
    (buckets : RandomBuckets) :
    (Desk.drafts w entries buckets).1.map (·.statement.map Statement.write?) =
      (Plan.outcomes (entries.map (Entry.plan w)) buckets).map (·.map some) := by
  induction entries generalizing buckets with
  | nil => rfl
  | cons e rest ih =>
    obtain ⟨he, hrest⟩ := List.forall_mem_cons.mp h
    obtain ⟨hwrite, hbuckets⟩ := w.statement_plan he buckets
    simp only [Desk.drafts, List.map_cons, Plan.outcomes, hwrite, ih hrest, hbuckets]

end Writer

namespace Service

/-- The plans of reported spans that are left for a worker with these marks: those without a key,
and of those with one the first, unless the key is in force. -/
def calledFor (s : Service) (marks : Marks) (spans : List Span) : List Plan :=
  due Plan.key? (marks.refresh s.clock).marked
    ((spans.map Span.normalize).flatMap (Span.plans s.writer))

theorem filled_of_mem_entriesOf {spans : List Span} {e : Entry} (h : e ∈ entriesOf spans) :
    e.Filled := by
  obtain ⟨span, -, he⟩ := List.mem_flatMap.mp h
  exact span.filled_of_mem_entries he

theorem calledFor_eq (s : Service) (marks : Marks) (spans : List Span) :
    s.calledFor marks spans =
      (due Entry.mark? (marks.refresh s.clock).marked (entriesOf spans)).map
        (Entry.plan s.writer) := by
  have hplans : (spans.map Span.normalize).flatMap (Span.plans s.writer) =
      (entriesOf spans).map (Entry.plan s.writer) := by
    rw [entriesOf, List.map_flatMap]
    apply congrArg (List.flatMap · _)
    funext span
    exact (span.entries_plan s.writer).symm
  have hkey : Plan.key? ∘ Entry.plan s.writer = Entry.mark? :=
    funext (Entry.plan_key? s.writer)
  rw [calledFor, hplans, due_map, hkey]

theorem started_outcomes (s : Service) (marks : Marks) (spans : List Span) :
    (s.started marks spans).map (·.statement.map Statement.write?) =
      (Plan.outcomes (s.calledFor marks spans) s.buckets).map (·.map some) := by
  have hfilled : ∀ e ∈ due Entry.mark? (marks.refresh s.clock).marked (entriesOf spans),
      e.Filled := fun e he => filled_of_mem_entriesOf (mem_of_mem_due he)
  rw [started, walk, (Desk.attempts_eq _ _ _ _).1, s.writer.drafts_outcomes hfilled, calledFor_eq]

/-- Accepting spans attempts the writes that they call for and no others, in the order of the
spans. What is not rejected is logged by the store in this order, or held back in this order if its
table is gated. -/
theorem accept_writes (s : Service) (worker : Fin s.workers.length) (spans : List Span) :
    ∃ flights : List Flight,
      (s.accept worker spans).batches = s.batches ++ [.ofFlights worker flights] ∧
      flights.map (·.attempt.statement.map Statement.write?) =
        (Plan.outcomes (s.calledFor s.workers[worker] spans) s.buckets).map (·.map some) ∧
      (s.accept worker spans).store.log = s.store.log ++
        (flights.filterMap (·.attempt.sent?)).filter (·.table ∉ s.gate) ∧
      (s.accept worker spans).held.map (·.2) = s.held.map (·.2) ++
        (flights.filterMap (·.attempt.sent?)).filter (·.table ∈ s.gate) := by
  let attempts := s.started s.workers[worker] spans
  have haccept := accept_eq (List.getElem?_eq_getElem worker.isLt) spans
  have hattempts : (s.flights s.issued attempts).map (·.attempt) = attempts :=
    s.flights_attempts s.issued attempts
  have hsent : (s.flights s.issued attempts).filterMap (·.attempt.sent?) =
      attempts.filterMap Attempt.sent? := by
    have h := congrArg (List.filterMap Attempt.sent?) hattempts
    rwa [List.filterMap_map] at h
  refine ⟨s.flights s.issued attempts, ?_, ?_, ?_, ?_⟩
  · rw [haccept]
    rfl
  · have houtcomes := s.started_outcomes s.workers[worker] spans
    have h := congrArg (List.map (·.statement.map Statement.write?)) hattempts
    rw [List.map_map] at h
    exact h.trans houtcomes
  · rw [haccept, hsent, ← direct_statements, ← Keyspace.tellAll_log]
    rfl
  · rw [haccept, hsent, ← heldBack_statements s s.issued, ← List.map_append]
    rfl

end Service

end TraceIndex
