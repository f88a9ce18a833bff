import TraceIndex.Proofs.EventOrder
import TraceIndex.Proofs.Origins

namespace TraceIndex

theorem cut_cases {α : Type} {c : α} {l r m t : List α} (h : l ++ c :: r = m ++ c :: t) :
    (l = m ∧ r = t) ∨ (∃ n, l = m ++ c :: n ∧ t = n ++ c :: r) ∨
      ∃ n, m = l ++ c :: n ∧ r = n ++ c :: t := by
  obtain ⟨n, hm, hr⟩ | ⟨n, hl, ht⟩ := List.append_eq_append_iff.mp h
  · cases n with
    | nil =>
      rw [List.append_nil] at hm
      exact .inl ⟨hm.symm, (List.cons.inj hr).2⟩
    | cons b n =>
      obtain ⟨rfl, hrest⟩ := List.cons.inj hr
      exact .inr (.inr ⟨n, hm, hrest⟩)
  · cases n with
    | nil =>
      rw [List.append_nil] at hl
      exact .inl ⟨hl, (List.cons.inj ht).2.symm⟩
    | cons b n =>
      obtain ⟨rfl, hrest⟩ := List.cons.inj ht
      exact .inr (.inl ⟨n, hl, hrest⟩)

theorem eq_dotted_iff {a b c : String} :
    a = b ++ "." ++ c ↔ a.toList = b.toList ++ '.' :: c.toList := by
  rw [← String.toList_inj]
  simp

/-- Texts with a dot between them are the same text if they are the same texts, or if the first of
one goes on behind the dot of the other. -/
theorem dotted_cases {a b c d : String} (h : a ++ "." ++ b = c ++ "." ++ d) :
    (a = c ∧ b = d) ∨
      ∃ m, (a = c ++ "." ++ m ∧ d = m ++ "." ++ b) ∨ (c = a ++ "." ++ m ∧ b = m ++ "." ++ d) := by
  have hchars : a.toList ++ '.' :: b.toList = c.toList ++ '.' :: d.toList := by
    simpa using congrArg String.toList h
  simp only [eq_dotted_iff]
  obtain ⟨hac, hbd⟩ | ⟨n, hn⟩ | ⟨n, hn⟩ := cut_cases hchars
  · exact .inl ⟨String.toList_inj.mp hac, String.toList_inj.mp hbd⟩
  · exact .inr ⟨.ofList n, .inl (by simpa using hn)⟩
  · exact .inr ⟨.ofList n, .inr (by simpa using hn)⟩

namespace Span

theorem mem_dropRepeats_of_mem {l : List String} {a : String} (h : a ∈ l) : a ∈ dropRepeats l := by
  fun_induction dropRepeats l with
  | case1 b rest ih =>
    obtain rfl | h := List.mem_cons.mp h
    · exact ih List.mem_cons_self
    · exact ih h
  | case2 b c rest _ ih =>
    obtain rfl | h := List.mem_cons.mp h
    · exact List.mem_cons_self
    · exact List.mem_cons_of_mem _ (ih h)
  | case3 => exact h

theorem mem_services_iff {s : Span} {service : String} :
    service ∈ s.services ↔ ∃ e ∈ s.endpoints, e.service? = some service := by
  rw [← List.mem_filterMap, services]
  constructor
  · exact fun h => List.mem_mergeSort.mp (mem_dropRepeats h)
  · exact fun h => mem_dropRepeats_of_mem (List.mem_mergeSort.mpr h)

theorem mem_services_normalize {s : Span} {service : String} :
    service ∈ s.normalize.services ↔ service ∈ s.services := by
  have hperm := byTime_perm s.events
  have hendpoints : ∀ e, e ∈ s.normalize.endpoints ↔ e ∈ s.endpoints := by
    intro e
    simp only [endpoints, normalize, List.mem_append, List.mem_filterMap, hperm.mem_iff]
  simp only [mem_services_iff, hendpoints]

theorem Indexed.spanName_columns {durations : DurationBuckets} {s : Span} {row : Row}
    (h : s.Indexed durations (.ofRow .bySpanName row)) :
    ∃ service ∈ s.services, s.name ≠ "" ∧
      row.column? .bySpanName "service_span_name" = some (.text (service ++ "." ++ s.name)) ∧
      row.column? .bySpanName "trace_id" = some (.bigint s.traceId.toInt64) := by
  obtain ⟨key, payload, ttl⟩ := row
  generalize hw : Write.ofRow .bySpanName ⟨key, payload, ttl⟩ = write at h
  cases h with
  | service | spanName | byService | byDuration | byAnnotationKey => cases hw
  | bySpanName hs hname ht =>
    cases hw
    exact ⟨_, hs, hname, rfl, rfl⟩

end Span

namespace Service

variable {setup : Setup} {s : Service} {t : Table} {row : Row}

theorem origin_of_row (opened : setup.openService = .ok s) (periods : List (List Action))
    (actions : List Action) (h : row ∈ ((s.through periods).run actions).store.rows.get t) :
    (periods = [] ∧ row ∈ setup.store.rows.get t) ∨
      ∃ span, .accepted span ∈ s.historyThrough periods ++ (s.through periods).history actions ∧
        ((∃ bytes, s.writer.codec.encode span.normalize = .ok bytes ∧
          .ofRow t row = span.normalize.fact bytes) ∨
        span.normalize.Indexed s.writer.durations (.ofRow t row)) := by
  have hrows := @Preserved.run (s.through periods) _ [] (rows_preserved _)
    (fun t row hrow => .inl hrow) actions
  obtain hold | hwritten := hrows t row h
  · obtain ⟨hperiods, hold⟩ := rows_through hold
    rw [store_opened opened] at hold
    exact .inl ⟨hperiods, hold⟩
  · have htraced := traced_through (traced_opened opened) periods
    have hall := (traced_preserved s.writer).run htraced actions
    have hwritten : .ofRow t row ∈
        written (s.historyThrough periods ++ (s.through periods).history actions) := by
      rw [written_append]
      exact List.mem_append_right _ hwritten
    exact .inr (hall.origin hwritten)

theorem indexed_of_row (opened : setup.openService = .ok s) (periods : List (List Action))
    (actions : List Action) (ht : t ≠ .traces)
    (h : row ∈ ((s.through periods).run actions).store.rows.get t) :
    (periods = [] ∧ row ∈ setup.store.rows.get t) ∨
      ∃ span, .accepted span ∈ s.historyThrough periods ++ (s.through periods).history actions ∧
        span.normalize.Indexed s.writer.durations (.ofRow t row) := by
  obtain hold | ⟨span, hspan, ⟨bytes, -, hfact⟩ | hindexed⟩ := origin_of_row opened periods actions h
  · exact .inl hold
  · exact absurd (congrArg Write.table hfact) ht
  · exact .inr ⟨span, hspan, hindexed⟩

/-- Every row that is found under the text of a service and a span name was there before, or leads
to an accepted span that has both, or that has others with the same text. Then the service of one
goes on behind the dot of the other. -/
theorem spanName_found (setup : Setup) (s : Service) (periods : List (List Action))
    (actions : List Action) (service name : String) (opened : setup.openService = .ok s) :
    ∀ row ∈ ((s.through periods).run actions).store.rows.get .bySpanName,
      row.column? .bySpanName "service_span_name" = some (.text (service ++ "." ++ name)) →
      (periods = [] ∧ row ∈ setup.store.rows.get .bySpanName) ∨
        ∃ span, .accepted span ∈ s.historyThrough periods ++ (s.through periods).history actions ∧
          row.column? .bySpanName "trace_id" = some (.bigint span.traceId.toInt64) ∧
          ∃ other ∈ span.services, other ≠ "" ∧ span.name ≠ "" ∧
            ((other = service ∧ span.name = name) ∨
              ∃ m, (other = service ++ "." ++ m ∧ name = m ++ "." ++ span.name) ∨
                (service = other ++ "." ++ m ∧ span.name = m ++ "." ++ name)) := by
  intro row hrow hfound
  obtain hold | ⟨span, hspan, hindexed⟩ :=
    indexed_of_row opened periods actions (by decide) hrow
  · exact .inl hold
  · obtain ⟨other, hother, hname, htext, hid⟩ := hindexed.spanName_columns
    rw [htext, Option.some.injEq, Cell.text.injEq] at hfound
    have hservice := Span.mem_services_normalize.mp hother
    exact .inr ⟨span, hspan, hid, other, hservice, span.ne_empty_of_mem_services hservice, hname,
      dotted_cases hfound⟩

theorem spanName_found_web :
    let span : Span := { Span.of "web" "get" with timestamp := some 1 }
    let start := zipkin.through [[.hire, .accept 0 [span]]]
    Setup.zipkin.openService = .ok zipkin ∧
    ((start.run [.accept 0 [span]]).store.rows.get .bySpanName).length = 1 ∧
    ∀ row ∈ (start.run [.accept 0 [span]]).store.rows.get .bySpanName,
      row.column? .bySpanName "service_span_name" = some (.text ("web" ++ "." ++ "get")) ∧
      ∃ span', .accepted span' ∈ zipkin.historyThrough [[.hire, .accept 0 [span]]] ++
          start.history [.accept 0 [span]] ∧
        row.column? .bySpanName "trace_id" = some (.bigint span'.traceId.toInt64) ∧
        ∃ other ∈ span'.services, other ≠ "" ∧ span'.name ≠ "" ∧
          ((other = "web" ∧ span'.name = "get") ∨
            ∃ m, (other = "web" ++ "." ++ m ∧ "get" = m ++ "." ++ span'.name) ∨
              ("web" = other ++ "." ++ m ∧ span'.name = m ++ "." ++ "get")) := by
  intro span start
  have found : ∀ row ∈ (start.run [.accept 0 [span]]).store.rows.get .bySpanName,
      row.column? .bySpanName "service_span_name" = some (.text ("web" ++ "." ++ "get")) := by
    decide +kernel
  refine ⟨zipkin_opened, by decide +kernel, fun row hrow => ⟨found row hrow, ?_⟩⟩
  obtain ⟨hperiods, -⟩ | hspan := spanName_found _ zipkin [[.hire, .accept 0 [span]]]
    [.accept 0 [span]] "web" "get" zipkin_opened row hrow (found row hrow)
  · cases hperiods
  · exact hspan

/-- A span of the service "shop.eu" is found under the service "shop". -/
theorem span_found_elsewhere :
    let span : Span := { Span.of "shop.eu" "get" with timestamp := some 1 }
    let actions : List Action := [.hire, .accept 0 [span]]
    Setup.zipkin.openService = .ok zipkin ∧
    ∃ row ∈ (zipkin.run actions).store.rows.get .bySpanName,
      row.column? .bySpanName "service_span_name" = some (.text ("shop" ++ "." ++ "eu.get")) ∧
      ¬ ∃ span', .accepted span' ∈ zipkin.history actions ∧
        row.column? .bySpanName "trace_id" = some (.bigint span'.traceId.toInt64) ∧
        "shop" ∈ span'.services ∧ span'.name = "eu.get" := by
  intro span actions
  refine ⟨zipkin_opened, ⟨[.text "shop.eu.get", .timestamp ⟨1⟩], [("trace_id", .bigint 1)],
    some 259200⟩, by decide +kernel, by rfl, ?_⟩
  have hnames : (zipkin.history actions).all
      (fun | .accepted span' => span'.name ≠ "eu.get" | .answered .. => true) := by
    decide +kernel
  rintro ⟨span', hspan, -, -, hname⟩
  exact of_decide_eq_true (List.all_eq_true.mp hnames _ hspan) hname

end Service

end TraceIndex
