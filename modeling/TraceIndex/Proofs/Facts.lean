import TraceIndex.Proofs.EventOrder
import TraceIndex.Proofs.Forms
import TraceIndex.Proofs.Lookups

namespace TraceIndex

namespace Span

/-- The row holds the normalized span, and its key is what the span read back from it tells. -/
structure Stored (codec : Codec) (s : Span) (row : Row) : Prop where
  decoded : ∃ blob, row.payload = [("span", .blob blob)] ∧ codec.decode blob = .ok s
  normal : s.normalize = s
  key : row.key =
    [.bigint s.traceId.toInt64, .timestamp ⟨s.timestamp.getD 0⟩, .text s.uniquenessKey]

variable {durations : DurationBuckets} {s : Span} {write : Write}

theorem Indexed.table_ne (h : s.Indexed durations write) : write.table ≠ .traces := by
  cases h with
  | service | spanName | byService | bySpanName | byDuration | byAnnotationKey => nofun

end Span

theorem Recorded.exists_write {w : Writer} {past : List Report} {st : Statement}
    (h : Recorded w past st) : ∃ write, st.write? = some write := by
  obtain ⟨span, -, e, he, drawn, hst⟩ := h
  obtain ⟨write, hwrite, -⟩ :=
    Writer.write?_of_statement (span.normalize.filled_of_mem_entries he) hst
  exact ⟨write, hwrite⟩

namespace Service

variable {s : Service}

theorem codec_opened {setup : Setup} (h : setup.openService = .ok s) :
    s.writer.codec = setup.codec := by
  obtain ⟨_, _, _, _, rfl⟩ := Setup.openService_eq_ok h
  rfl

theorem rows_opened {setup : Setup} (h : setup.openService = .ok s) :
    s.store.rows = setup.store.rows := by
  rw [store_opened h]

theorem stored_of_written {past : List Report} {w : Writer} (htraced : Traced w past s)
    (lossless : w.codec = .json ∨
      w.codec = .msgpack ∧ ∀ span, .accepted span ∈ past → span.Short) {row : Row}
    (h : .ofRow .traces row ∈ written past) :
    ∃ span, .accepted span ∈ past ∧ span.normalize.Stored w.codec row := by
  obtain ⟨span, hspan, ⟨bytes, hbytes, hfact⟩ | hindexed⟩ := htraced.origin h
  · have hdecode : w.codec.decode bytes = .ok span.normalize := by
      obtain hjson | ⟨hmsgpack, hshort⟩ := lossless
      · rw [hjson] at hbytes ⊢
        exact Codec.json_decode hbytes
      · rw [hmsgpack] at hbytes ⊢
        exact Codec.msgpack_decode (hshort span hspan).normalize hbytes
    exact ⟨span, hspan, ⟨bytes, congrArg Write.payload hfact, hdecode⟩, span.normalize_normalize,
      congrArg Write.key hfact⟩
  · exact absurd rfl hindexed.table_ne

/-- Every row of a span that was not there before holds the normalized form of a span that was
accepted, under the key that this form tells when it is read back. Every write of a span that
succeeded has a row under its key, which is what was written there last. -/
theorem facts_consistent (setup : Setup) (s : Service) (actions : List Action)
    (opened : setup.openService = .ok s)
    (lossless : setup.codec = .json ∨
      setup.codec = .msgpack ∧ ∀ span, .accepted span ∈ s.history actions → span.Short) :
    (∀ row ∈ (s.run actions).store.rows.get .traces,
      row ∈ setup.store.rows.get .traces ∨
        ∃ span, .accepted span ∈ s.history actions ∧ span.normalize.Stored setup.codec row) ∧
    ∀ st, .answered st (.ok ()) ∈ s.history actions → st.table = .traces →
      ∃ key row, st.primaryKey? = some key ∧
        (s.run actions).store.get? .traces key = some row ∧
        Write.lastUnder (written (s.history actions)) .traces key = some (.ofRow .traces row) := by
  have htraced := traced_run opened actions
  constructor
  · intro row hrow
    have hrows := @Preserved.run s _ [] (rows_preserved s.store.rows)
      (fun t row hrow => .inl hrow) actions
    rw [← codec_opened opened] at lossless ⊢
    rw [← rows_opened opened]
    exact (hrows .traces row hrow).imp_right (stored_of_written htraced lossless)
  · intro st hst htable
    obtain ⟨write, hwrite⟩ := (htraced.answered st _ hst).exists_write
    obtain ⟨key, hkey, rfl⟩ := Option.map_eq_some_iff.mp hwrite
    obtain ⟨last, hlast⟩ := Write.exists_lastUnder (mem_written.mpr ⟨st, hst, hwrite⟩)
    rw [htable] at hlast
    obtain ⟨row, hrow, rfl⟩ := row_of_lastUnder (payload?_run s actions .traces key) hlast
    exact ⟨key, row, hkey, hrow, hlast⟩

theorem facts_consistent_web :
    let span (name : String) : Span := { Span.of "web" name with timestamp := some 3 }
    let actions : List Action := [.hire, .accept 0 [span "get", span "put"]]
    Setup.zipkin.openService = .ok zipkin ∧
    (∀ span', .accepted span' ∈ zipkin.history actions → span'.Short) ∧
    (((zipkin.run actions).store.rows.get .traces).toList.map (·.key[1]?) =
        [some (.timestamp ⟨3⟩)] ∧
      (written (zipkin.history actions)).countP (·.table = .traces) = 2) ∧
    (∀ row ∈ (zipkin.run actions).store.rows.get .traces,
      ∃ span', .accepted span' ∈ zipkin.history actions ∧ span'.normalize.Stored .msgpack row) ∧
    ∀ st, .answered st (.ok ()) ∈ zipkin.history actions → st.table = .traces →
      ∃ key row, st.primaryKey? = some key ∧
        (zipkin.run actions).store.get? .traces key = some row ∧
        Write.lastUnder (written (zipkin.history actions)) .traces key =
          some (.ofRow .traces row) := by
  intro span actions
  have reported : ∀ r ∈ zipkin.history actions,
      r = .accepted (span "get") ∨ r = .accepted (span "put") ∨ r.isAnswer := by
    decide +kernel
  have short : ∀ span', .accepted span' ∈ zipkin.history actions → span'.Short := by
    intro span' hspan
    obtain heq | heq | hanswer := reported _ hspan
    · obtain rfl := Report.accepted.inj heq
      decide
    · obtain rfl := Report.accepted.inj heq
      decide
    · cases hanswer
  have empty : Setup.zipkin.store.rows.get .traces = .empty := rfl
  have consistent := facts_consistent _ zipkin actions zipkin_opened (.inr ⟨rfl, short⟩)
  refine ⟨zipkin_opened, short, by decide +kernel, fun row hrow => ?_, consistent.2⟩
  apply (consistent.1 row hrow).resolve_left
  rw [empty]
  exact List.not_mem_nil

end Service

end TraceIndex
