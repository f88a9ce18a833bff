import Mathlib.Data.Rat.Floor
import TraceIndex.Proofs.Partitions
import TraceIndex.Proofs.Sequence

namespace TraceIndex

namespace DurationBuckets

variable {d : DurationBuckets}

/-- The bucket is named for the times between two ends. -/
def Names (d : DurationBuckets) (a b : Int64) (bucket : Int32) : Prop :=
  (d.between a b).1 ≤ bucket ∧ bucket ≤ (d.between a b).2

theorem window_wide (d : DurationBuckets) : 2 ^ 32 ≤ d.window.toInt :=
  Int64.le_iff_toInt_le.mp d.wide

/-- The quotient fits 32 bits, as no time has more than 64 and the window is wider than 32. -/
theorem toInt_bucket (d : DurationBuckets) (time : Int64) :
    (d.bucket time).toInt = time.toInt / d.window.toInt := by
  have hwide := d.window_wide
  have hlow := time.le_toInt
  have hhigh := time.toInt_lt
  apply Int32.toInt_ofInt_of_le
  · apply (Int.le_ediv_iff_mul_le (by omega)).mpr
    omega
  · apply (Int.ediv_lt_iff_lt_mul (by omega)).mpr
    omega

theorem bucket_floor (d : DurationBuckets) (time : Int64) :
    (d.bucket time).toInt = ⌊(time.toInt : ℚ) / d.window.toInt⌋ := by
  have hwide := d.window_wide
  obtain ⟨width, hwidth⟩ := Int.eq_ofNat_of_zero_le (a := d.window.toInt) (by omega)
  rw [toInt_bucket, hwidth, Int.cast_natCast, Rat.floor_intCast_div_natCast]

theorem bucket_mono (d : DurationBuckets) {a b : Int64} (h : a ≤ b) : d.bucket a ≤ d.bucket b := by
  have hwide := d.window_wide
  rw [Int32.le_iff_toInt_le, toInt_bucket, toInt_bucket]
  exact Int.ediv_le_ediv (by omega) (Int64.le_iff_toInt_le.mp h)

theorem exists_time {low high : Int64} {bucket : Int32} (hle : low ≤ high)
    (hlow : d.bucket low ≤ bucket) (hhigh : bucket ≤ d.bucket high) :
    ∃ time, low ≤ time ∧ time ≤ high ∧ d.bucket time = bucket := by
  have hwide := d.window_wide
  have hpos : 0 < d.window.toInt := by omega
  by_cases hfirst : d.bucket low = bucket
  · exact ⟨low, Int64.le_refl low, hle, hfirst⟩
  · let start := bucket.toInt * d.window.toInt
    have hbefore : low.toInt < start := by
      apply (Int.ediv_lt_iff_lt_mul hpos).mp
      rw [← toInt_bucket]
      exact Int32.lt_iff_toInt_lt.mp (Int32.lt_iff_le_and_ne.mpr ⟨hlow, hfirst⟩)
    have hafter : start ≤ high.toInt := by
      apply (Int.le_ediv_iff_mul_le hpos).mp
      rw [← toInt_bucket]
      exact Int32.le_iff_toInt_le.mp hhigh
    have hlowest := low.le_toInt
    have hhighest := high.toInt_lt
    have hstart : (Int64.ofInt start).toInt = start :=
      Int64.toInt_ofInt_of_le (by omega) (by omega)
    refine ⟨.ofInt start, ?_, ?_, ?_⟩
    · rw [Int64.le_iff_toInt_le, hstart]
      omega
    · rw [Int64.le_iff_toInt_le, hstart]
      exact hafter
    · apply Int32.toInt_inj.mp
      rw [toInt_bucket, hstart]
      exact Int.mul_ediv_cancel _ (by omega)

theorem min_le_max (a b : Int64) : min a b ≤ max a b := by
  change (if a ≤ b then a else b) ≤ if a ≤ b then b else a
  split_ifs with h
  · exact h
  · exact Int64.le_of_lt (Int64.not_le.mp h)

theorem names_iff {a b : Int64} {bucket : Int32} :
    d.Names a b bucket ↔ ∃ time, min a b ≤ time ∧ time ≤ max a b ∧ d.bucket time = bucket := by
  constructor
  · rintro ⟨hlow, hhigh⟩
    exact exists_time (min_le_max a b) hlow hhigh
  · rintro ⟨time, hlow, hhigh, rfl⟩
    exact ⟨d.bucket_mono hlow, d.bucket_mono hhigh⟩

theorem window_of_ofWindow? {window : Int64} (h : ofWindow? window = some d) : d.window = window := by
  simp only [ofWindow?] at h
  split at h
  · cases h
    rfl
  · cases h

end DurationBuckets

theorem Span.Indexed.duration_columns {durations : DurationBuckets} {s : Span} {row : Row}
    (h : s.Indexed durations (.ofRow .byDuration row)) :
    ∃ time, row.column? .byDuration "ts" = some (.timestamp ⟨time⟩) ∧
      row.column? .byDuration "bucket" = some (.int (durations.bucket time)) := by
  obtain ⟨key, payload, ttl⟩ := row
  generalize hw : Write.ofRow .byDuration ⟨key, payload, ttl⟩ = write at h
  cases h with
  | service | spanName | byService | bySpanName | byAnnotationKey => cases hw
  | byDuration hs hname ht hd =>
    cases hw
    exact ⟨_, rfl, rfl⟩

namespace DurationBuckets

/-- The bucket of a time is the whole number of windows that lie before it, so later times have no
earlier buckets. The buckets that are named for two ends, in either order, are those of the times
between them. So each row that a service wrote for a duration, at a time between two ends, is in a
bucket that its settings name for these ends. -/
theorem between_exact :
    (∀ window d, ofWindow? window = some d →
      (∀ time, (d.bucket time).toInt = ⌊(time.toInt : ℚ) / window.toInt⌋) ∧
      (∀ a b, a ≤ b → d.bucket a ≤ d.bucket b) ∧
      ∀ a b bucket, d.Names a b bucket ↔
        ∃ time, min a b ≤ time ∧ time ≤ max a b ∧ d.bucket time = bucket) ∧
    ∀ (setup : Setup) (s : Service) (periods : List (List Action)) (actions : List Action),
      setup.openService = .ok s →
      ∃ d, ofWindow? setup.settings.durationWindow = some d ∧
        ∀ row ∈ ((s.through periods).run actions).store.rows.get .byDuration,
          (periods = [] ∧ row ∈ setup.store.rows.get .byDuration) ∨
            ∃ time bucket, row.column? .byDuration "ts" = some (.timestamp ⟨time⟩) ∧
              row.column? .byDuration "bucket" = some (.int bucket) ∧
              ∀ a b, min a b ≤ time → time ≤ max a b → d.Names a b bucket := by
  constructor
  · intro window d accepted
    obtain rfl := window_of_ofWindow? accepted
    exact ⟨d.bucket_floor, fun a b => d.bucket_mono, fun a b bucket => names_iff⟩
  · intro setup s periods actions opened
    refine ⟨s.writer.durations, (Setup.openService_parts opened).2.1, fun row hrow => ?_⟩
    obtain hold | ⟨span, -, hindexed⟩ :=
      Service.indexed_of_row opened periods actions (by decide) hrow
    · exact .inl hold
    · obtain ⟨time, hts, hbucket⟩ := hindexed.duration_columns
      refine .inr ⟨time, _, hts, hbucket, fun a b hlow hhigh => ?_⟩
      exact names_iff.mpr ⟨time, hlow, hhigh, rfl⟩

theorem between_exact_narrowest :
    let d : DurationBuckets := ⟨narrowestWindow, by decide⟩
    let span : Span := { Span.of "web" "get" with timestamp := some (-1), duration := some 5 }
    let rows := (Service.zipkin.run [.hire, .accept 0 [span]]).store.rows.get .byDuration
    ofWindow? narrowestWindow = some d ∧
    (d.bucket Int64.minValue).toInt = ⌊(Int64.minValue.toInt : ℚ) / narrowestWindow.toInt⌋ ∧
    ((-1 : Int64) ≤ 0 ∧ d.bucket (-1) ≤ d.bucket 0) ∧
    (d.Names 4294967296 (-1) 0 ↔ ∃ time : Int64,
      min 4294967296 (-1) ≤ time ∧ time ≤ max 4294967296 (-1) ∧ d.bucket time = 0) ∧
    Setup.zipkin.openService = .ok Service.zipkin ∧
    rows.length = 2 ∧
    ∀ row ∈ rows, ∃ time bucket, row.column? .byDuration "ts" = some (.timestamp ⟨time⟩) ∧
      row.column? .byDuration "bucket" = some (.int bucket) ∧
      ∀ a b, min a b ≤ time → time ≤ max a b → daily.Names a b bucket := by
  intro d span rows
  obtain ⟨hpure, hrun⟩ := between_exact
  obtain ⟨hfloor, hmono, hnames⟩ := hpure narrowestWindow d rfl
  obtain ⟨used, hused, hrows⟩ :=
    hrun _ Service.zipkin [] [.hire, .accept 0 [span]] Service.zipkin_opened
  obtain rfl : daily = used := Option.some.inj hused
  refine ⟨rfl, hfloor _, ⟨by decide, hmono _ _ (by decide)⟩, hnames _ _ _, Service.zipkin_opened,
    by decide +kernel, fun row hrow => ?_⟩
  exact (hrows row hrow).resolve_left fun h => List.not_mem_nil h.2

end DurationBuckets

end TraceIndex
