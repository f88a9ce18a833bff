import TraceIndex.Proofs.Origins

namespace TraceIndex

namespace Span

variable {durations : DurationBuckets} {s : Span} {write : Write}

theorem Indexed.eq_leads (h : s.Indexed durations write) (hpayload : write.table.payload ≠ []) :
    write = s.leads write.table write.key := by
  cases h with
  | service | spanName => exact absurd rfl hpayload
  | byService | bySpanName | byDuration | byAnnotationKey => rfl

theorem mem_entries_of_indexEntries {service : String} {ts : Int64} {e : Entry}
    (hs : service ∈ s.services) (ht : s.timestamp = some ts) (he : e ∈ s.indexEntries service ts) :
    e ∈ s.entries := by
  have hservice : e ∈ s.serviceEntries service := by
    simp only [serviceEntries, ht, List.mem_append]
    exact .inr he
  simp only [entries, List.mem_append, List.mem_flatMap]
  exact .inl (.inr ⟨service, hs, hservice⟩)

theorem byService_mem {service : String} {ts : Int64} (hs : service ∈ s.services)
    (ht : s.timestamp = some ts) : .byService service ts s.traceId ∈ s.entries := by
  apply mem_entries_of_indexEntries hs ht
  simp [indexEntries]

theorem bySpanName_mem {service : String} {ts : Int64} (hs : service ∈ s.services)
    (ht : s.timestamp = some ts) (hname : s.name ≠ "") :
    .bySpanName service s.name ts s.traceId ∈ s.entries := by
  apply mem_entries_of_indexEntries hs ht
  simp [indexEntries, isNamed, hname]

theorem byDuration_mem {service name : String} {ts duration : Int64} (hs : service ∈ s.services)
    (ht : s.timestamp = some ts) (hd : s.duration = some duration)
    (hname : name = s.name ∨ name = "") :
    .byDuration service name ts duration s.traceId ∈ s.entries := by
  apply mem_entries_of_indexEntries hs ht
  by_cases hempty : s.name = ""
  · obtain rfl : name = s.name := hname.elim (fun h => h) (·.trans hempty.symm)
    simp [indexEntries, hd]
  · obtain rfl | rfl := hname
    · simp [indexEntries, hd]
    · simp [indexEntries, isNamed, hd, hempty]

theorem byAnnotationKey_mem {key : String} {ts : Int64} (hkey : key ∈ s.annotationKeys)
    (ht : s.timestamp = some ts) : .byAnnotationKey key ts s.traceId ∈ s.entries := by
  have hentry : .byAnnotationKey key ts s.traceId ∈ s.keyEntries := by
    simp only [keyEntries, ht]
    exact List.mem_map.mpr ⟨key, hkey, rfl⟩
  exact List.mem_append_right _ hentry

/-- The span's own write was made under a key, and the row there tells its trace, or that of a span
of another trace that was written later. -/
def Found (past : List Report) (k : Keyspace) (durations : DurationBuckets) (s : Span)
    (table : Table) (key : List Cell) : Prop :=
  ∃ before after, written past = before ++ s.leads table key :: after ∧
    ∃ row, k.get? table key = some row ∧
      (row.payload = (s.leads table key).payload ∨
        ∃ other, .accepted other ∈ past ∧ other.traceId ≠ s.traceId ∧
          other.normalize.Indexed durations (.ofRow table row) ∧ .ofRow table row ∈ after)

end Span

namespace Service

variable {past : List Report} {s : Service} {w : Writer}

theorem key_of_get? {k : Keyspace} {t : Table} {key : List Cell} {row : Row}
    (h : k.get? t key = some row) : row.key = key := by
  simpa using List.find?_some h

theorem row_of_lastUnder {k before : Keyspace} {t : Table} {key : List Cell} {last : Write}
    (hrows : k.payload? t key =
      ((Write.lastUnder (written past) t key).map (·.payload)).or (before.payload? t key))
    (hlast : Write.lastUnder (written past) t key = some last) :
    ∃ row, k.get? t key = some row ∧ .ofRow t row = last := by
  rw [hlast] at hrows
  obtain ⟨row, hrow, hpayload⟩ := Option.map_eq_some_iff.mp hrows
  obtain ⟨-, -, -, rfl, rfl, -⟩ := Write.of_lastUnder hlast
  have hpayload : row.payload = last.payload := hpayload
  exact ⟨row, hrow, by rw [Write.ofRow, key_of_get? hrow, hpayload]⟩

theorem found_of_written {before : Keyspace} (htraced : Traced w past s)
    (hrows : ∀ t key, s.store.payload? t key =
      ((Write.lastUnder (written past) t key).map (·.payload)).or (before.payload? t key))
    {span : Span} {table : Table} {key : List Cell} (htable : table.payload ≠ [])
    (hfacts : table ≠ .traces) (h : span.leads table key ∈ written past) :
    span.Found past s.store w.durations table key := by
  obtain ⟨last, hlast⟩ := Write.exists_lastUnder h
  obtain ⟨earlier, later, hsplit, rfl, rfl, hnone⟩ := Write.of_lastUnder hlast
  obtain ⟨row, hrow, hofRow⟩ := row_of_lastUnder (hrows last.table last.key) hlast
  have hrowpayload : row.payload = last.payload := congrArg Write.payload hofRow
  by_cases hsame : row.payload = (span.leads last.table last.key).payload
  · obtain ⟨first, rest, hown⟩ := List.append_of_mem h
    exact ⟨first, rest, hown, row, hrow, .inl hsame⟩
  · have hown : span.leads last.table last.key ∈ earlier := by
      rw [hsplit] at h
      obtain h | h := List.mem_append.mp h
      · exact h
      · obtain h | h := List.mem_cons.mp h
        · exact absurd (hrowpayload.trans (congrArg Write.payload h.symm)) hsame
        · exact absurd ⟨rfl, rfl⟩ (hnone _ h)
    obtain ⟨first, rest, rfl⟩ := List.append_of_mem hown
    have hmem : last ∈ written past := by
      rw [hsplit]
      exact List.mem_append_right _ List.mem_cons_self
    obtain ⟨other, hother, ⟨bytes, -, rfl⟩ | hindexed⟩ := htraced.origin hmem
    · exact absurd rfl hfacts
    · refine ⟨first, rest ++ last :: later, by rw [hsplit]; simp, row, hrow, .inr ?_⟩
      rw [hofRow]
      refine ⟨other, hother, fun htrace => hsame ?_, hindexed, by simp⟩
      have hleads := congrArg Write.payload (hindexed.eq_leads htable)
      rw [hrowpayload, hleads, Span.leads, Span.leads, ← htrace]
      rfl

theorem delivered_run {setup : Setup} (opened : setup.openService = .ok s) {actions : List Action}
    (faultless : Faultless (s.history actions)) :
    Delivered s.writer (s.history actions) (s.run actions) := by
  refine @Preserved.run s _ [] (delivered_preserved s.writer) (fun _ => ?_) actions faultless
  exact ⟨rfl, ticketed_opened opened, fun span hspan => absurd hspan List.not_mem_nil⟩

theorem payload?_run (s : Service) (actions : List Action) (t : Table) (key : List Cell) :
    (s.run actions).store.payload? t key =
      ((Write.lastUnder (written (s.history actions)) t key).map (·.payload)).or
        (s.store.payload? t key) :=
  @Preserved.run s _ [] (payload?_preserved s.store) (fun _ _ => rfl) actions t key

/-- After a run in which no statement fails or is still held back, every accepted span that has a
time is found by each of its services, names, durations and annotation keys, and so is its trace
unless a span of another trace was written later under the very same key. -/
theorem found_unless_displaced (setup : Setup) (s : Service) (actions : List Action) (span : Span)
    (ts : Int64) (opened : setup.openService = .ok s)
    (faultless : Faultless (s.history actions)) (released : (s.run actions).held = [])
    (accepted : .accepted span ∈ s.history actions)
    (timed : span.normalize.timestamp = some ts) :
    (∀ service ∈ span.normalize.services,
      (∃ bucket, span.normalize.Found (s.history actions) (s.run actions).store s.writer.durations
        .byService [.text service, .int bucket, .timestamp ⟨ts⟩]) ∧
      (span.name ≠ "" → span.normalize.Found (s.history actions) (s.run actions).store
        s.writer.durations .bySpanName
        [.text (service ++ "." ++ span.name), .timestamp ⟨ts⟩]) ∧
      ∀ duration, span.normalize.duration = some duration → ∀ name, name = span.name ∨ name = "" →
        span.normalize.Found (s.history actions) (s.run actions).store s.writer.durations
          .byDuration [.text service, .text name, .int (s.writer.durations.bucket ts),
            .bigint duration, .timestamp ⟨ts⟩]) ∧
    ∀ key ∈ span.normalize.annotationKeys,
      (Utf8.encode key).length ≤ s.writer.keyLimit.toNat →
      ∃ bucket, span.normalize.Found (s.history actions) (s.run actions).store s.writer.durations
        .byAnnotationKey [.blob (Utf8.encode key), .int bucket, .timestamp ⟨ts⟩] := by
  have htraced := traced_run opened actions
  have hdelivered := delivered_run opened faultless
  have found : ∀ (table : Table) (key : List Cell), table.payload ≠ [] → table ≠ .traces →
      span.normalize.leads table key ∈ written (s.history actions) →
      span.normalize.Found (s.history actions) (s.run actions).store s.writer.durations table key :=
    fun table key htable hfacts => found_of_written htraced (payload?_run s actions) htable hfacts
  refine ⟨fun service hservice => ⟨?_, ?_, ?_⟩, ?_⟩
  · have he := Span.byService_mem hservice timed
    obtain ⟨drawn, hwritten⟩ := written_of_entry hdelivered released accepted he rfl
    exact ⟨drawn.draw.1, found _ _ (by decide) (by decide) (hwritten _ rfl)⟩
  · intro hname
    have he := Span.bySpanName_mem hservice timed hname
    obtain ⟨drawn, hwritten⟩ := written_of_entry hdelivered released accepted he rfl
    exact found _ _ (by decide) (by decide) (hwritten _ rfl)
  · intro duration hduration name hname
    have he := Span.byDuration_mem hservice timed hduration hname
    obtain ⟨drawn, hwritten⟩ := written_of_entry hdelivered released accepted he rfl
    exact found _ _ (by decide) (by decide) (hwritten _ rfl)
  · intro key hkey hlength
    have he := Span.byAnnotationKey_mem hkey timed
    obtain ⟨drawn, hwritten⟩ := written_of_entry hdelivered released accepted he rfl
    refine ⟨drawn.draw.1, found _ _ (by decide) (by decide) (hwritten _ ?_)⟩
    simp only [Entry.plan, Nat.not_lt.mpr hlength]
    rfl

theorem found_unless_displaced_web :
    let span : Span := { Span.of "web" "get" with timestamp := some 1 }
    let actions : List Action := [.hire, .accept 0 [span]]
    Setup.zipkin.openService = .ok zipkin ∧
    (Faultless (zipkin.history actions) ∧ (zipkin.run actions).held = [] ∧
      .accepted span ∈ zipkin.history actions ∧ span.normalize.timestamp = some 1) ∧
    ("web" ∈ span.normalize.services ∧ span.name ≠ "") ∧
    span.normalize.Found (zipkin.history actions) (zipkin.run actions).store
      zipkin.writer.durations .bySpanName [.text "web.get", .timestamp ⟨1⟩] := by
  intro span actions
  have faultless : Faultless (zipkin.history actions) := by decide +kernel
  have released : (zipkin.run actions).held = [] := by decide +kernel
  have accepted : .accepted span ∈ zipkin.history actions := by decide +kernel
  have timed : span.normalize.timestamp = some 1 := rfl
  have served : "web" ∈ span.normalize.services := by decide +kernel
  have named : span.name ≠ "" := by decide
  refine ⟨zipkin_opened, ⟨faultless, released, accepted, timed⟩, ⟨served, named⟩, ?_⟩
  exact ((found_unless_displaced _ zipkin actions span 1 zipkin_opened faultless released accepted
    timed).1 "web" served).2.1 named

/-- Two spans of different traces meet under one key, and only the second is found there. -/
theorem trace_displaced :
    let span (trace : UInt64) : Span :=
      { Span.of "web" "get" with traceId := trace, timestamp := some 1 }
    let actions : List Action := [.hire, .accept 0 [span 1], .accept 0 [span 2]]
    Setup.zipkin.openService = .ok zipkin ∧
    Faultless (zipkin.history actions) ∧ (zipkin.run actions).held = [] ∧
    .accepted (span 1) ∈ zipkin.history actions ∧ (span 1).normalize.timestamp = some 1 ∧
    "web" ∈ (span 1).normalize.services ∧ (span 1).name = "get" ∧
    ¬ ∃ row ∈ (zipkin.run actions).store.rows.get .bySpanName,
      row.key = [.text "web.get", .timestamp ⟨1⟩] ∧ row.payload = [("trace_id", .bigint 1)] := by
  intro span actions
  exact ⟨zipkin_opened, by decide +kernel, by decide +kernel, by decide +kernel, rfl,
    by decide +kernel, rfl, by decide +kernel⟩

end Service

end TraceIndex
