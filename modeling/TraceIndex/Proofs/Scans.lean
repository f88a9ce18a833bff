import TraceIndex.Proofs.ByteOrder
import TraceIndex.Proofs.Operations
import TraceIndex.Proofs.Partitions

namespace TraceIndex

section Runs

variable {α : Type} {r : α → α → Prop} {p : α → Bool} {l : List α}

/-- Behind an element that is kept, the next ones are kept up to the first that is not. -/
theorem filter_begins (hbetween : ∀ x y z, r x y → r y z → p x → p z → p y) (hl : l.Pairwise r)
    {x : α} (hx : p x) (hfirst : ∀ y ∈ l, r x y) : l.filter p <+: l := by
  induction l with
  | nil => exact List.prefix_rfl
  | cons y l ih =>
    obtain ⟨hy, hl⟩ := List.pairwise_cons.mp hl
    by_cases hp : p y
    · rw [List.filter_cons_of_pos hp, List.prefix_cons_inj]
      exact ih hl fun z hz => hfirst z (List.mem_cons_of_mem _ hz)
    · have hnone : (y :: l).filter p = [] := by
        apply List.filter_eq_nil_iff.mpr
        intro z hz hpz
        obtain rfl | hz := List.mem_cons.mp hz
        · exact hp hpz
        · exact hp (hbetween x y z (hfirst y List.mem_cons_self) (hy z hz) hx hpz)
      rw [hnone]
      exact List.nil_prefix

/-- What is kept of a list stands side by side in it, if all between two that are kept is kept. -/
theorem filter_contiguous (hbetween : ∀ x y z, r x y → r y z → p x → p z → p y) (hl : l.Pairwise r) :
    l.filter p <:+: l := by
  induction l with
  | nil => exact List.infix_rfl
  | cons x l ih =>
    obtain ⟨hx, hl⟩ := List.pairwise_cons.mp hl
    by_cases hp : p x
    · rw [List.filter_cons_of_pos hp]
      exact ((List.prefix_cons_inj x).mpr (filter_begins hbetween hl hp hx)).isInfix
    · rw [List.filter_cons_of_neg hp]
      exact List.infix_cons (ih hl)

end Runs

theorem lookup_zip {α β : Type} [DecidableEq α] {as : List α} {bs : List β} (hnodup : as.Nodup)
    (hlength : bs.length = as.length) {i : Nat} {a : α} (h : as[i]? = some a) :
    (as.zip bs).lookup a = bs[i]? := by
  induction as generalizing bs i with
  | nil => cases h
  | cons first as ih =>
    obtain ⟨hfirst, hnodup⟩ := List.nodup_cons.mp hnodup
    cases bs with
    | nil => cases hlength
    | cons b bs =>
      cases i with
      | zero =>
        obtain rfl : first = a := Option.some.inj h
        simp
      | succ i =>
        have ha : a ∈ as := List.mem_of_getElem? h
        have hne : (a == first) = false := beq_false_of_ne fun heq => hfirst (heq ▸ ha)
        rw [List.zip_cons_cons, List.lookup_cons, hne]
        exact ih hnodup (Nat.succ.inj hlength) h

namespace Cell

def time? : Cell → Option Int64
  | timestamp t => some t.micros
  | _ => none

def number? : Cell → Option Int64
  | bigint n => some n
  | _ => none

variable {x y : Cell} {a b : Int64}

theorem compare_of_kind (h : x.kind = y.kind) : compare x y = compare x.content y.content := by
  have hkind : compare x.kind y.kind = .eq := Nat.compare_eq_eq.mpr h
  change (compare x.kind y.kind).then (compare x.content y.content) = _
  rw [hkind, Ordering.eq_then]

theorem compare_time (hx : x.time? = some a) (hy : y.time? = some b) :
    compare x y = compare a.toInt b.toInt := by
  cases x with
  | bigint | int | text | blob => cases hx
  | timestamp t =>
    cases y with
    | bigint | int | text | blob => cases hy
    | timestamp u =>
      cases hx
      cases hy
      have hbyte : ∀ c d : UInt8, compare (c.toNat : Int) d.toNat = compare c d := by
        intro c d
        rw [← compare_byte, Int.compare_eq_ite_lt, Nat.compare_eq_ite_lt]
        simp only [Int.ofNat_lt]
      calc
        compare (timestamp t) (timestamp u)
            = compare (timestamp t).content (timestamp u).content := compare_of_kind rfl
        _ = compare t.bytes u.bytes := compare_map hbyte t.bytes u.bytes
        _ = compare t.micros.toInt u.micros.toInt := t.compare_bytes u

theorem compare_number (hx : x.number? = some a) (hy : y.number? = some b) :
    compare x y = compare a.toInt b.toInt := by
  cases x with
  | int | text | blob | timestamp => cases hx
  | bigint n =>
    cases y with
    | int | text | blob | timestamp => cases hy
    | bigint m =>
      cases hx
      cases hy
      have hcontent : compare (bigint a) (bigint b) = compare [a.toInt] [b.toInt] :=
        compare_of_kind rfl
      rw [hcontent, List.compare_cons_cons, List.compare_nil_nil, Ordering.then_eq]

end Cell

theorem lt_of_compare {a b : Int64} (h : compare a.toInt b.toInt = .lt) : a < b :=
  Int64.lt_iff_toInt_lt.mpr (Int.compare_eq_lt.mp h)

theorem eq_of_compare {a b : Int64} (h : compare a.toInt b.toInt = .eq) : a = b :=
  Int64.toInt_inj.mp (Std.LawfulEqOrd.eq_of_compare h)

namespace Table

theorem nodup_primaryKey (t : Table) : t.primaryKey.Nodup := by
  cases t <;> decide

theorem time_last {t : Table} {i : Nat} (h : t.primaryKey[i]? = some "ts") (ht : t ≠ .traces) :
    t.primaryKey.length = i + 1 := by
  have hlast : ∀ i < t.primaryKey.length, t.primaryKey[i]? = some "ts" →
      t.primaryKey.length = i + 1 := by
    cases t with
    | traces => exact absurd rfl ht
    | serviceNames | spanNames | byService | bySpanName | byAnnotationKey | byDuration => decide
  exact hlast i (List.getElem?_eq_some_iff.mp h).1 h

end Table

namespace Row

def time? (r : Row) (t : Table) : Option Int64 := (r.column? t "ts").bind Cell.time?

def duration? (r : Row) (t : Table) : Option Int64 := (r.column? t "duration").bind Cell.number?

variable {r : Row} {t : Table} {lead tail : List Cell} {i : Nat}

theorem column?_of_lead {column : String} (harity : r.key.length = t.primaryKey.length)
    (hkey : r.key = lead ++ tail) (h : t.primaryKey[lead.length + i]? = some column) :
    r.column? t column = tail[i]? := by
  have hlookup := lookup_zip t.nodup_primaryKey harity h
  have hlt : lead.length + i < r.key.length := harity ▸ (List.getElem?_eq_some_iff.mp h).1
  have hcell : r.key[lead.length + i]? = tail[i]? := by
    rw [hkey, List.getElem?_append_right (Nat.le_add_right ..), Nat.add_sub_cancel_left]
  rw [column?, hlookup, ← hcell, List.getElem?_eq_getElem hlt]

theorem time?_of_lead (harity : r.key.length = t.primaryKey.length) (hkey : r.key = lead ++ tail)
    (h : t.primaryKey[lead.length + i]? = some "ts") : r.time? t = tail[i]?.bind Cell.time? := by
  rw [time?, column?_of_lead harity hkey h]

theorem duration?_of_lead (harity : r.key.length = t.primaryKey.length)
    (hkey : r.key = lead ++ tail) (h : t.primaryKey[lead.length + i]? = some "duration") :
    r.duration? t = tail[i]?.bind Cell.number? := by
  rw [duration?, column?_of_lead harity hkey h]

end Row

namespace Rows

/-- The rows whose keys begin with the given cells. -/
def under (rows : Rows) (lead : List Cell) : List Row := rows.toList.filter (lead <+: ·.key)

variable {rows : Rows} {lead : List Cell}

theorem compare_behind (lead tail tail' : List Cell) :
    compare (lead ++ tail) (lead ++ tail') = compare tail tail' := by
  have hself : compare lead lead = .eq := Std.ReflCmp.compare_self
  rw [compare_append rfl, hself, Ordering.eq_then]

/-- What two keys begin with, every key between them begins with. -/
theorem prefix_of_between {x y z : List Cell} (hxy : compare x y = .lt) (hyz : compare y z = .lt)
    (hx : lead <+: x) (hz : lead <+: z) : lead <+: y := by
  induction lead generalizing x y z with
  | nil => exact List.nil_prefix
  | cons a lead ih =>
    obtain ⟨x, rfl⟩ := hx
    obtain ⟨z, rfl⟩ := hz
    cases y with
    | nil => simp at hxy
    | cons b y =>
      rw [List.cons_append, List.compare_cons_cons, Ordering.then_eq_lt] at hxy hyz
      obtain hab | ⟨hab, hxy⟩ := hxy
      · have hba := Std.OrientedCmp.gt_of_lt hab
        obtain hlt | ⟨heq, -⟩ := hyz
        · rw [hlt] at hba
          cases hba
        · rw [heq] at hba
          cases hba
      · obtain rfl : a = b := Std.LawfulEqOrd.eq_of_compare hab
        obtain hlt | ⟨-, hyz⟩ := hyz
        · rw [hab] at hlt
          cases hlt
        · exact (List.prefix_cons_inj a).mpr
            (ih hxy hyz (List.prefix_append ..) (List.prefix_append ..))

theorem under_contiguous : rows.under lead <:+: rows.toList := by
  apply filter_contiguous _ rows.ordered
  intro x y z hxy hyz hx hz
  exact decide_eq_true (prefix_of_between hxy hyz (of_decide_eq_true hx) (of_decide_eq_true hz))

theorem under_pairwise : (rows.under lead).Pairwise fun r r' =>
    ∃ tail tail', r.key = lead ++ tail ∧ r'.key = lead ++ tail' ∧ compare tail tail' = .lt := by
  refine (rows.ordered.filter _).imp_of_mem ?_
  intro r r' hr hr' hlt
  obtain ⟨tail, hkey⟩ : lead <+: r.key := of_decide_eq_true (List.mem_filter.mp hr).2
  obtain ⟨tail', hkey'⟩ : lead <+: r'.key := of_decide_eq_true (List.mem_filter.mp hr').2
  refine ⟨tail, tail', hkey.symm, hkey'.symm, ?_⟩
  rwa [← hkey, ← hkey', compare_behind] at hlt

end Rows

namespace Keyspace

variable {k : Keyspace} {t : Table} {lead : List Cell}

/-- Behind the same cells, the time alone decides; only in `traces` does it leave a tie. -/
theorem under_time (hts : t.primaryKey[lead.length]? = some "ts") :
    ((k.rows.get t).under lead).Pairwise fun r r' =>
      ∀ a ∈ r.time? t, ∀ b ∈ r'.time? t, a < b ∨ t = .traces ∧ a = b := by
  refine Rows.under_pairwise.imp_of_mem ?_
  rintro r r' hr hr' ⟨tail, tail', hkey, hkey', hlt⟩ a ha b hb
  have harity := k.complete t r (List.mem_of_mem_filter hr)
  have harity' := k.complete t r' (List.mem_of_mem_filter hr')
  rw [Row.time?_of_lead (i := 0) harity hkey hts] at ha
  rw [Row.time?_of_lead (i := 0) harity' hkey' hts] at hb
  obtain _ | ⟨x, rest⟩ := tail
  · cases ha
  · obtain _ | ⟨y, rest'⟩ := tail'
    · cases hb
    · rw [List.compare_cons_cons, Ordering.then_eq_lt, Cell.compare_time ha hb] at hlt
      obtain hlt | ⟨heq, hrest⟩ := hlt
      · exact .inl (lt_of_compare hlt)
      · by_cases ht : t = .traces
        · exact .inr ⟨ht, eq_of_compare heq⟩
        · have hlength := Table.time_last hts ht
          rw [hkey, List.length_append, List.length_cons] at harity
          rw [hkey', List.length_append, List.length_cons] at harity'
          obtain rfl : rest = [] := List.length_eq_zero_iff.mp (by omega)
          obtain rfl : rest' = [] := List.length_eq_zero_iff.mp (by omega)
          cases hrest

theorem under_duration (k : Keyspace) (service name bucket : Cell) :
    ((k.rows.get .byDuration).under [service, name, bucket]).Pairwise fun r r' =>
      ∀ c ∈ r.duration? .byDuration, ∀ d ∈ r'.duration? .byDuration,
        ∀ a ∈ r.time? .byDuration, ∀ b ∈ r'.time? .byDuration, c < d ∨ c = d ∧ a < b := by
  refine Rows.under_pairwise.imp_of_mem ?_
  rintro r r' hr hr' ⟨tail, tail', hkey, hkey', hlt⟩ c hc d hd a ha b hb
  have harity := k.complete _ r (List.mem_of_mem_filter hr)
  have harity' := k.complete _ r' (List.mem_of_mem_filter hr')
  rw [Row.duration?_of_lead (i := 0) harity hkey rfl] at hc
  rw [Row.duration?_of_lead (i := 0) harity' hkey' rfl] at hd
  rw [Row.time?_of_lead (i := 1) harity hkey rfl] at ha
  rw [Row.time?_of_lead (i := 1) harity' hkey' rfl] at hb
  obtain _ | ⟨x, _ | ⟨v, rest⟩⟩ := tail
  · cases hc
  · cases ha
  · obtain _ | ⟨y, _ | ⟨w, rest'⟩⟩ := tail'
    · cases hd
    · cases hb
    · rw [List.compare_cons_cons, List.compare_cons_cons, Ordering.then_eq_lt, Ordering.then_eq_lt,
        Cell.compare_number hc hd, Cell.compare_time ha hb] at hlt
      obtain hlt | ⟨heq, hlt | ⟨-, hrest⟩⟩ := hlt
      · exact .inl (lt_of_compare hlt)
      · exact .inr ⟨eq_of_compare heq, lt_of_compare hlt⟩
      · rw [hkey] at harity
        rw [hkey'] at harity'
        obtain rfl : rest = [] := by simpa [Table.primaryKey] using harity
        obtain rfl : rest' = [] := by simpa [Table.primaryKey] using harity'
        cases hrest

end Keyspace

theorem Span.fact_time {s : Span} {t : Table} {row : Row} {bytes : Bytes}
    (h : .ofRow t row = s.fact bytes) : t = .traces ∧ row.time? t = some s.storedTime := by
  obtain ⟨key, payload, ttl⟩ := row
  cases h
  exact ⟨rfl, rfl⟩

theorem Span.Indexed.times {durations : DurationBuckets} {s : Span} {t : Table} {row : Row}
    (h : s.Indexed durations (.ofRow t row)) (hts : "ts" ∈ t.primaryKey) :
    row.time? t = some s.storedTime ∧
      (t = .byDuration → ∃ d, s.duration = some d ∧ row.duration? t = some d) := by
  obtain ⟨key, payload, ttl⟩ := row
  generalize hw : Write.ofRow t ⟨key, payload, ttl⟩ = write at h
  cases h with
  | service | spanName =>
    cases hw
    simp [Table.primaryKey] at hts
  | byService hs ht | bySpanName hs hname ht | byAnnotationKey hkey ht =>
    cases hw
    rw [storedTime, ht]
    exact ⟨rfl, fun h => by cases h⟩
  | byDuration hs hname ht hd =>
    cases hw
    rw [storedTime, ht]
    exact ⟨rfl, fun _ => ⟨_, hd, rfl⟩⟩

namespace Service

variable {s : Service}

/-- Rows of the same first cells stand side by side. Where the time follows, they are in its order,
negative times first, and no two are of the same time except in `traces`. Durations of the same
service, name and bucket are in the order of the duration and then of the time. The times and
durations are those of the spans that were accepted, whatever else was there before. -/
theorem scans_chronological (setup : Setup) (s : Service) (periods : List (List Action))
    (actions : List Action) (opened : setup.openService = .ok s) :
    let rows := ((s.through periods).run actions).store.rows
    (∀ t lead, (rows.get t).under lead <:+: (rows.get t).toList) ∧
    (∀ (t : Table) lead, t.primaryKey[lead.length]? = some "ts" →
      ((rows.get t).under lead).Pairwise fun r r' =>
        ∀ a ∈ r.time? t, ∀ b ∈ r'.time? t, a < b ∨ t = .traces ∧ a = b) ∧
    (∀ service name bucket,
      ((rows.get .byDuration).under [service, name, bucket]).Pairwise fun r r' =>
        ∀ c ∈ r.duration? .byDuration, ∀ d ∈ r'.duration? .byDuration,
          ∀ a ∈ r.time? .byDuration, ∀ b ∈ r'.time? .byDuration, c < d ∨ c = d ∧ a < b) ∧
    ∀ t, "ts" ∈ t.primaryKey → ∀ row ∈ rows.get t,
      (periods = [] ∧ row ∈ setup.store.rows.get t) ∨
        ∃ span, .accepted span ∈ s.historyThrough periods ++ (s.through periods).history actions ∧
          row.time? t = some span.normalize.storedTime ∧
          (t = .byDuration →
            ∃ d, span.normalize.duration = some d ∧ row.duration? t = some d) := by
  intro rows
  let k := ((s.through periods).run actions).store
  refine ⟨fun t lead => Rows.under_contiguous, fun t lead => k.under_time, k.under_duration, ?_⟩
  intro t hts row hrow
  obtain hold | ⟨span, hspan, ⟨bytes, -, hfact⟩ | hindexed⟩ :=
    origin_of_row opened periods actions hrow
  · exact .inl hold
  · obtain ⟨rfl, htime⟩ := Span.fact_time hfact
    exact .inr ⟨span, hspan, htime, fun h => by cases h⟩
  · exact .inr ⟨span, hspan, hindexed.times hts⟩

theorem scans_chronological_epoch :
    let span (time duration : Int64) : Span :=
      { Span.of "web" "get" with timestamp := some time, duration := some duration }
    let rows := (zipkin.run [.hire, .accept 0 [span 3 1, span (-1) 9, span (-5) 70]]).store.rows
    Setup.zipkin.openService = .ok zipkin ∧
    (Table.bySpanName.primaryKey[[Cell.text "web.get"].length]? = some "ts" ∧
      ((rows.get .bySpanName).under [.text "web.get"]).map (·.time? .bySpanName) =
        [some (-5), some (-1), some 3] ∧
      ((rows.get .bySpanName).under [.text "web.get"]).Pairwise fun r r' =>
        ∀ a ∈ r.time? .bySpanName, ∀ b ∈ r'.time? .bySpanName,
          a < b ∨ Table.bySpanName = .traces ∧ a = b) ∧
    (((rows.get .byDuration).under [.text "web", .text "get", .int (-1)]).map
        (fun r => (r.duration? .byDuration, r.time? .byDuration)) =
        [(some 9, some (-1)), (some 70, some (-5))] ∧
      (rows.get .byDuration).under [.text "web", .text "get", .int (-1)] <:+:
        (rows.get .byDuration).toList) ∧
    "ts" ∈ Table.traces.primaryKey ∧
      ∀ row ∈ rows.get .traces, (row.time? .traces).isSome := by
  intro span rows
  let actions : List Action := [.hire, .accept 0 [span 3 1, span (-1) 9, span (-5) 70]]
  obtain ⟨hscan, htime, -, horigin⟩ := scans_chronological _ zipkin [] actions zipkin_opened
  refine ⟨zipkin_opened, ⟨rfl, by decide +kernel, htime .bySpanName _ rfl⟩,
    ⟨by decide +kernel, hscan .byDuration _⟩, by decide, fun row hrow => ?_⟩
  obtain ⟨-, hold⟩ | ⟨span', -, htime', -⟩ := horigin .traces (by decide) row hrow
  · cases hold
  · rw [htime']
    rfl

end Service

end TraceIndex
