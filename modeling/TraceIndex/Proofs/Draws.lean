import TraceIndex.Proofs.Opening
import TraceIndex.Proofs.Partitions
import TraceIndex.Proofs.Sequence
import TraceIndex.Proofs.Uniformity

namespace TraceIndex

theorem Words.firstAccepted_lt {bound : UInt32} (h : bound ≠ 0) (tries : Nat) (words : Words) :
    (firstAccepted bound tries words).1 < bound := by
  induction tries generalizing words with
  | zero => exact UInt32.lt_iff_toNat_lt.mpr (toNat_pos h)
  | succ tries ih =>
    rw [firstAccepted_succ]
    split
    · exact scaled_lt h _
    · exact ih _

namespace RandomBuckets

variable {b : RandomBuckets} {bucket : Int32} {count : UInt32}

/-- The bucket is one of those from zero up to the count. -/
def Scanned (count : UInt32) (bucket : Int32) : Prop :=
  0 ≤ bucket.toInt ∧ bucket.toInt < count.toNat

instance (count : UInt32) (bucket : Int32) : Decidable (Scanned count bucket) :=
  inferInstanceAs (Decidable (_ ∧ _))

theorem toUInt32_draw (b : RandomBuckets) : b.draw.1.toUInt32 = (b.words.below b.count).1 := rfl

theorem draw_lt (b : RandomBuckets) : b.draw.1.toUInt32 < b.count := by
  rw [toUInt32_draw]
  exact Words.firstAccepted_lt b.count_ne_zero _ b.words

theorem draws_succ (n : Nat) (b : RandomBuckets) :
    b.draws (n + 1) = (b.draw.1 :: (b.draw.2.draws n).1, (b.draw.2.draws n).2) := rfl

theorem length_draws (n : Nat) (b : RandomBuckets) : (b.draws n).1.length = n := by
  induction n generalizing b with
  | zero => rfl
  | succ n ih => rw [draws_succ, List.length_cons, ih]

theorem draws_add (m n : Nat) (b : RandomBuckets) :
    b.draws (m + n) =
      ((b.draws m).1 ++ ((b.draws m).2.draws n).1, ((b.draws m).2.draws n).2) := by
  induction m generalizing b with
  | zero => rw [Nat.zero_add]; rfl
  | succ m ih => rw [Nat.succ_add, draws_succ, ih, draws_succ]; rfl

theorem mem_draws_lt {n : Nat} (h : bucket ∈ (b.draws n).1) : bucket.toUInt32 < b.count := by
  induction n generalizing b with
  | zero => cases h
  | succ n ih =>
    rw [draws_succ] at h
    obtain rfl | h := List.mem_cons.mp h
    · exact b.draw_lt
    · exact ih (b := b.draw.2) h

theorem scanned_iff (h : bucket.toUInt32 < count) :
    Scanned count bucket ↔ bucket.toUInt32.toNat < 2 ^ 31 := by
  have hsigned : bucket.toInt =
      if 2 * bucket.toUInt32.toNat < 2 ^ 32 then (bucket.toUInt32.toNat : Int)
      else bucket.toUInt32.toNat - 2 ^ 32 :=
    BitVec.toInt_eq_toNat_cond bucket.toBitVec
  have hhigh : bucket.toUInt32.toNat < 2 ^ 32 := bucket.toUInt32.toNat_lt
  rw [UInt32.lt_iff_toNat_lt] at h
  rw [Scanned, hsigned]
  split_ifs <;> omega

theorem scanned_of_le (hcount : count.toNat ≤ 2 ^ 31) (h : bucket.toUInt32 < count) :
    Scanned count bucket :=
  (scanned_iff h).mpr (Nat.lt_of_lt_of_le (UInt32.lt_iff_toNat_lt.mp h) hcount)

def highSeed : UInt64 := 2471310628

theorem next_highSeed : (Words.seeded highSeed).next.1.toNat = 2 ^ 32 - 1 := by decide +kernel

theorem draw_highSeed (hwords : b.words = .seeded highSeed) (hcount : 2 ^ 31 < b.count.toNat) :
    b.draw.1.toUInt32.toNat = b.count.toNat - 1 := by
  have hlt := b.count.toNat_lt
  have hslots := (Words.slots_range b.count_ne_zero).1
  have hproduct : (Words.seeded highSeed).next.1.toNat * b.count.toNat =
      2 ^ 32 * (b.count.toNat - 1) + (2 ^ 32 - b.count.toNat) := by
    rw [next_highSeed]
    omega
  have haccepts : Words.accepts b.count (Words.seeded highSeed).next.1 := by
    rw [Words.accepts_iff b.count_ne_zero, hproduct]
    omega
  have hbelow : b.words.below b.count =
      (Words.scaled b.count (Words.seeded highSeed).next.1, (Words.seeded highSeed).skip 1) := by
    rw [hwords]
    exact Words.firstAccepted_of_first (n := 0) (by decide) haccepts fun m hm => absurd hm m.not_lt_zero
  rw [toUInt32_draw, hbelow, Words.toNat_scaled, hproduct]
  omega

theorem not_scanned_highSeed (hwords : b.words = .seeded highSeed)
    (hcount : 2 ^ 31 < b.count.toNat) : ¬ Scanned b.count b.draw.1 := by
  rw [scanned_iff b.draw_lt, draw_highSeed hwords hcount]
  omega

end RandomBuckets

def Statement.GoesTo (buckets : List Int32) (st : Statement) : Prop :=
  st.table.isSpread → ∃ bucket ∈ buckets, st.get? "bucket" = some (.int bucket)

theorem Statement.GoesTo.mono {buckets more : List Int32} {st : Statement}
    (h : st.GoesTo buckets) (hsub : buckets ⊆ more) : st.GoesTo more := by
  intro hspread
  obtain ⟨bucket, hbucket, hget⟩ := h hspread
  exact ⟨bucket, hsub hbucket, hget⟩

theorem Statement.column?_of_write? {st : Statement} {t : Table} {row : Row}
    (h : st.write? = some (.ofRow t row)) (ht : t.isSpread) :
    st.table = t ∧ row.column? t "bucket" = st.get? "bucket" := by
  obtain ⟨key, hkey, heq⟩ := Option.map_eq_some_iff.mp h
  obtain ⟨rfl, rfl, -⟩ := Write.mk.inj heq
  refine ⟨rfl, ?_⟩
  rw [primaryKey?] at hkey
  cases htable : st.table with
  | byService | byAnnotationKey =>
    rw [htable] at hkey
    simp only [Table.primaryKey, List.mapM_cons, List.mapM_nil, Option.bind_eq_bind,
      Option.bind_eq_some_iff, Option.pure_def, Option.some.injEq] at hkey
    obtain ⟨_, -, _, ⟨bucket, hbucket, _, -, rfl⟩, hkey⟩ := hkey
    rw [Row.column?, ← hkey, hbucket]
    rfl
  | traces | serviceNames | spanNames | bySpanName | byDuration =>
    rw [htable] at ht
    cases ht

namespace Service

variable {past : List Report} {s : Service} {start : RandomBuckets}

/-- So many buckets were drawn, and what is spread goes to one of them. -/
structure Drawn (start : RandomBuckets) (n : Nat) (past : List Report) (s : Service) : Prop where
  buckets : s.buckets = (start.draws n).2
  answered : ∀ st r, .answered st r ∈ past → st.GoesTo (start.draws n).1
  held : ∀ h ∈ s.held, h.2.GoesTo (start.draws n).1

theorem started_draws (s : Service) (marks : Marks) (spans : List Span) :
    ∃ n, (s.walk marks spans).2.buckets = (s.buckets.draws n).2 ∧
      ∀ a ∈ s.started marks spans, ∀ st, a.sent? = some st → st.GoesTo (s.buckets.draws n).1 := by
  obtain ⟨hattempts, hbuckets⟩ := Desk.attempts_eq s.writer s.clock (entriesOf spans)
    ⟨marks, s.buckets⟩
  obtain ⟨hspread, hleft⟩ := Desk.drafts_buckets s.writer
    (due Entry.mark? (marks.refresh s.clock).marked (entriesOf spans)) s.buckets
  refine ⟨_, hbuckets.trans hleft, fun a ha st hst ht => ?_⟩
  rw [started, walk, hattempts] at ha
  have hmem := List.mem_filter (p := (·.table.isSpread)).mpr
    ⟨List.mem_filterMap.mpr ⟨a, ha, hst⟩, ht⟩
  have hget := List.mem_map_of_mem (f := (·.get? "bucket")) hmem
  rw [hspread] at hget
  obtain ⟨bucket, hbucket, heq⟩ := List.mem_map.mp hget
  exact ⟨bucket, hbucket, heq.symm⟩

theorem Drawn.frame {n : Nat} {t : Service} (hs : Drawn start n past s)
    (hbuckets : t.buckets = s.buckets) (hheld : t.held = s.held) : Drawn start n past t :=
  ⟨hbuckets.trans hs.buckets, hs.answered, hheld ▸ hs.held⟩

theorem drawn_accept {n worker : Nat} {marks : Marks} {spans : List Span}
    (h : s.workers[worker]? = some marks) (hs : Drawn start n past s) :
    ∃ m, Drawn start m (past ++ s.reports (.accept worker spans)) (s.accept worker spans) := by
  obtain ⟨k, hbuckets, hstarted⟩ := s.started_draws marks spans
  rw [hs.buckets] at hbuckets hstarted
  have hold : (start.draws n).1 ⊆ (start.draws (n + k)).1 := by
    rw [RandomBuckets.draws_add]
    exact List.subset_append_left ..
  have hnew : ((start.draws n).2.draws k).1 ⊆ (start.draws (n + k)).1 := by
    rw [RandomBuckets.draws_add]
    exact List.subset_append_right ..
  refine ⟨n + k, ?_, ?_, ?_⟩
  · rw [accept_eq h, RandomBuckets.draws_add]
    exact hbuckets
  · intro st r hst
    obtain hst | hst := List.mem_append.mp hst
    · exact (hs.answered st r hst).mono hold
    · obtain ⟨a, ha, hsent⟩ := sent_of_answered h hst
      exact (hstarted a ha st hsent).mono hnew
  · intro g hg
    rw [accept_held h] at hg
    obtain hg | hg := List.mem_append.mp hg
    · exact (hs.held g hg).mono hold
    · obtain ⟨i, a, ha, -, hst, -⟩ := mem_heldBack hg
      exact (hstarted a (List.mem_of_getElem? ha) g.2 hst).mono hnew

theorem drawn_preserved (start : RandomBuckets) :
    Preserved fun past s => ∃ n, Drawn start n past s where
  hire past s := fun ⟨n, hs⟩ => ⟨n, hs.frame rfl rfl⟩
  accept past s worker marks spans h := fun ⟨n, hs⟩ => drawn_accept h hs
  tends past s t h := by
    rintro ⟨n, hs⟩
    obtain ⟨_, _, _, _, _, _, -, -, rfl⟩ := h
    exact ⟨n, hs.frame rfl rfl⟩
  resolve past s fate h hh := by
    rintro ⟨n, hs⟩
    have hmem := (mem_held_of_heldUnder? hh).1
    rw [resolveUnder_of_some hh]
    refine ⟨n, hs.buckets, ?_, fun g hg => hs.held g (List.mem_of_mem_filter hg)⟩
    intro st r hst
    obtain hst | hst := List.mem_append.mp hst
    · exact hs.answered st r hst
    · cases List.mem_singleton.mp hst
      exact hs.held h hmem
  look past s worker := fun ⟨n, hs⟩ => ⟨n, hs.frame rfl rfl⟩
  set past s clock faults options := fun ⟨n, hs⟩ => ⟨n, hs.frame rfl rfl⟩

/-- The service with another stream to draw its buckets from. -/
def drawingFrom (s : Service) (words : Words) : Service :=
  { s with buckets := { s.buckets with words } }

theorem drawn_through (hs : Drawn start 0 past s) (periods : List (List Action)) :
    ∃ n, Drawn start n (past ++ s.historyThrough periods) (s.through periods) :=
  (drawn_preserved start).through (fun _ _ ⟨n, hs⟩ => ⟨n, hs.frame rfl rfl⟩) ⟨0, hs⟩ periods

theorem bucket_of_row {setup : Setup} (opened : setup.openService = .ok s) (words : Words)
    (periods : List (List Action)) (actions : List Action) {t : Table} (ht : t.isSpread) {row : Row}
    (hrow : row ∈ (((s.drawingFrom words).through periods).run actions).store.rows.get t) :
    (periods = [] ∧ row ∈ setup.store.rows.get t) ∨
      ∃ bucket n, row.column? t "bucket" = some (.int bucket) ∧
        bucket ∈ ((s.drawingFrom words).buckets.draws n).1 := by
  let drawing := s.drawingFrom words
  have hrows := @Preserved.run (drawing.through periods) _ [] (rows_preserved _)
    (fun t row hrow => .inl hrow) actions
  obtain hold | hwritten := hrows t row hrow
  · obtain ⟨hperiods, hold⟩ := rows_through hold
    have hstore : s.store = setup.store := store_opened opened
    exact .inl ⟨hperiods, hstore ▸ hold⟩
  · have hopened : Drawn drawing.buckets 0 [] drawing := by
      obtain ⟨schema, expiry, random, durations, rfl⟩ := Setup.openService_eq_ok opened
      exact ⟨rfl, fun st r hr => absurd hr List.not_mem_nil,
        fun h hh => absurd hh List.not_mem_nil⟩
    obtain ⟨n, hdrawn⟩ := (drawn_preserved drawing.buckets).run
      (drawn_through hopened periods) actions
    obtain ⟨st, hst, hwrite⟩ := mem_written.mp hwritten
    obtain ⟨htable, hcolumn⟩ := Statement.column?_of_write? hwrite ht
    obtain ⟨bucket, hbucket, hget⟩ :=
      hdrawn.answered st _ (List.mem_append_right _ hst) (htable ▸ ht)
    exact .inr ⟨bucket, n, hcolumn.trans hget, hbucket⟩

def spreadOnce : Span :=
  { Span.of "web" "" with
    timestamp := some 1
    events := [⟨1, "sr", some (.named "web")⟩]
    tags := [] }

theorem plainEntries_spreadOnce : ∃ span : Span,
    plainEntries [spreadOnce] = [.trace span 1 span.uniquenessKey, .byService "web" 1 1] :=
  ⟨spreadOnce, by decide +kernel⟩

theorem exists_row_of_draw {setup : Setup} (opened : setup.openService = .ok s)
    (gate : setup.gate = []) (faults : setup.store.faults = []) :
    ∃ row ∈ (s.run [.hire, .accept 0 [spreadOnce]]).store.rows.get .byService,
      row.column? .byService "bucket" = some (.int s.buckets.draw.1) := by
  let t := s.act .hire
  let marks := Marks.fresh s.settings.dedupMillis s.clock
  let cells (bucket : Int32) : List (String × Cell) :=
    [("service_name", .text "web"), ("bucket", .int bucket), Writer.time 1, Writer.traceId 1]
  let st := t.writer.bound .byService (cells t.buckets.draw.1)
  let key : List Cell := [.text "web", .int t.buckets.draw.1, .timestamp ⟨1⟩]
  obtain ⟨hmarks, hgate, hfaults⟩ :
      t.workers[0]? = some marks ∧ t.gate = [] ∧ t.store.faults = [] := by
    obtain ⟨schema, expiry, random, durations, rfl⟩ := Setup.openService_eq_ok opened
    exact ⟨rfl, gate, faults⟩
  have hstarted : ⟨.ok st, none⟩ ∈ t.started marks [spreadOnce] := by
    obtain ⟨span, hplain⟩ := plainEntries_spreadOnce
    have hdrafts : (t.started marks [spreadOnce]).filter (·.mark.isNone) =
        (plainDrafts t.writer [spreadOnce] t.buckets).1 :=
      congrArg Prod.fst (t.started_unmarked marks [spreadOnce])
    have htrace := (t.writer.statement_of_not_spread (e := .trace span 1 span.uniquenessKey) rfl
      t.buckets t.buckets).2
    have hcells : t.writer.cells (.byService "web" 1 1) = .ok cells := rfl
    have hdrawn := Writer.statement_drawn hcells rfl t.buckets
    rw [plainDrafts, hplain, Desk.drafts_cons, Desk.drafts_cons, htrace, hdrawn] at hdrafts
    apply List.mem_of_mem_filter (p := (·.mark.isNone))
    rw [hdrafts]
    exact List.mem_cons_of_mem _ List.mem_cons_self
  have hanswered : .answered st (.ok ()) ∈ s.history [.hire, .accept 0 [spreadOnce]] := by
    have hsent : (⟨.ok st, none⟩ : Attempt).sent? = some st := rfl
    have hdirect : t.direct? ⟨.ok st, none⟩ = some st := by
      rw [direct?, hsent, hgate]
      rfl
    have hreported := (answered_accept hmarks).mpr
      ⟨List.mem_filterMap.mpr ⟨_, hstarted, hdirect⟩, execute_started hstarted hsent hfaults⟩
    exact List.mem_append_right _ (List.mem_append_left _ hreported)
  have hkey := (mem_keys_run opened _ .byService key).mpr (.inr ⟨st, hanswered, rfl, rfl⟩)
  obtain ⟨row, hrow, hrowkey⟩ := List.mem_map.mp hkey
  refine ⟨row, hrow, ?_⟩
  rw [Row.column?, hrowkey]
  rfl

end Service

theorem Setup.exists_opened {settings : Settings} (valid : settings.validate = .ok settings)
    (seed : UInt64) :
    ∃ s, openService { ephemeral "zipkin" with settings, seed := some seed } = .ok s := by
  rw [← refusal?_eq_none, refusal?_openService, List.findSome?_eq_none_iff, faultless_iff]
  refine ⟨⟨settings, valid⟩, ⟨_, rfl⟩, fun t => ?_⟩
  cases t <;> exact ⟨_, _, rfl, rfl⟩

namespace RandomBuckets

open Service

theorem exists_opened_not_scanned {settings : Settings}
    (valid : settings.validate = .ok settings) (hlarge : 2 ^ 31 < settings.bucketCount.toNat) :
    ∃ s, Setup.openService
        { Setup.ephemeral "zipkin" with settings, seed := some highSeed } = .ok s ∧
      seeded? settings.bucketCount highSeed = some s.buckets ∧
      ¬ Scanned settings.bucketCount s.buckets.draw.1 := by
  obtain ⟨s, opened⟩ := Setup.exists_opened valid highSeed
  have hseeded : seeded? settings.bucketCount highSeed = some s.buckets :=
    (Setup.openService_parts opened).1
  obtain ⟨hcount, hwords⟩ := parts_of_ofWords? hseeded
  rw [← hcount] at hlarge
  exact ⟨s, opened, hseeded, hcount ▸ not_scanned_highSeed hwords hlarge⟩

/-- For all valid settings. A draw is a number below the count, and the bucket that is bound for it
is scanned exactly if the number needs no sign bit. Each row that is spread over buckets, whatever
stream they are drawn from, was there before or is in a bucket that was drawn. So all draws of all
seeds are scanned exactly if the count is no more than `2 ^ 31`, and so are all rows of all runs. -/
theorem buckets_scanned_iff (settings : Settings) (valid : settings.validate = .ok settings) :
    (∀ b : RandomBuckets, b.count = settings.bucketCount → ∀ n, (b.draws n).1.length = n ∧
      ∀ bucket ∈ (b.draws n).1, bucket.toUInt32 < settings.bucketCount ∧
        (Scanned settings.bucketCount bucket ↔ bucket.toUInt32.toNat < 2 ^ 31)) ∧
    (∀ (setup : Setup) (s : Service) (words : Words) (periods : List (List Action))
        (actions : List Action), setup.settings = settings → setup.openService = .ok s →
      (s.drawingFrom words).buckets.count = settings.bucketCount ∧ ∀ t, t.isSpread →
        ∀ row ∈ (((s.drawingFrom words).through periods).run actions).store.rows.get t,
          (periods = [] ∧ row ∈ setup.store.rows.get t) ∨
            ∃ bucket n, row.column? t "bucket" = some (.int bucket) ∧
              bucket ∈ ((s.drawingFrom words).buckets.draws n).1) ∧
    ((∀ seed b, seeded? settings.bucketCount seed = some b → ∀ n, ∀ bucket ∈ (b.draws n).1,
      Scanned settings.bucketCount bucket) ↔ settings.bucketCount.toNat ≤ 2 ^ 31) ∧
    ((∀ (setup : Setup) (s : Service) (periods : List (List Action)) (actions : List Action),
      setup.settings = settings → setup.openService = .ok s → ∀ t, t.isSpread →
        ∀ row ∈ ((s.through periods).run actions).store.rows.get t,
          (periods = [] ∧ row ∈ setup.store.rows.get t) ∨
            ∃ bucket, row.column? t "bucket" = some (.int bucket) ∧
              Scanned settings.bucketCount bucket) ↔ settings.bucketCount.toNat ≤ 2 ^ 31) := by
  have hcount : ∀ (setup : Setup) (s : Service), setup.settings = settings →
      setup.openService = .ok s → s.buckets.count = settings.bucketCount := by
    intro setup s hsettings opened
    rw [← hsettings]
    exact (parts_of_ofWords? (Setup.openService_parts opened).1).1
  refine ⟨?_, ?_, ⟨?_, ?_⟩, ⟨?_, ?_⟩⟩
  · intro b hb n
    refine ⟨length_draws n b, fun bucket hbucket => ?_⟩
    have hlt : bucket.toUInt32 < settings.bucketCount := hb ▸ mem_draws_lt hbucket
    exact ⟨hlt, scanned_iff hlt⟩
  · intro setup s words periods actions hsettings opened
    exact ⟨hcount setup s hsettings opened,
      fun t ht row hrow => bucket_of_row opened words periods actions ht hrow⟩
  · intro hall
    by_contra hlarge
    obtain ⟨s, -, hseeded, hout⟩ := exists_opened_not_scanned valid (Nat.not_le.mp hlarge)
    exact hout (hall highSeed s.buckets hseeded 1 _ List.mem_cons_self)
  · intro hsmall seed b hseeded n bucket hbucket
    have hlt := mem_draws_lt hbucket
    rw [(parts_of_ofWords? hseeded).1] at hlt
    exact scanned_of_le hsmall hlt
  · intro hall
    by_contra hlarge
    obtain ⟨s, opened, -, hout⟩ := exists_opened_not_scanned valid (Nat.not_le.mp hlarge)
    obtain ⟨row, hrow, hbucket⟩ := exists_row_of_draw opened rfl rfl
    obtain ⟨-, hold⟩ | ⟨bucket, hbucket', hscanned⟩ :=
      hall _ s [] _ rfl opened .byService rfl row hrow
    · exact List.not_mem_nil hold
    · obtain rfl := Cell.int.inj (Option.some.inj (hbucket'.symm.trans hbucket))
      exact hout hscanned
  · intro hsmall setup s periods actions hsettings opened t ht row hrow
    obtain hold | ⟨bucket, n, hbucket, hdrawn⟩ :=
      bucket_of_row opened s.buckets.words periods actions ht hrow
    · exact .inl hold
    · have hlt := mem_draws_lt hdrawn
      have hsame : (s.drawingFrom s.buckets.words).buckets.count = settings.bucketCount :=
        hcount setup s hsettings opened
      rw [hsame] at hlt
      exact .inr ⟨bucket, hbucket, scanned_of_le hsmall hlt⟩

theorem buckets_scanned_iff_ten :
    let b : RandomBuckets := ⟨10, by decide, .seeded 7⟩
    let rows := (zipkin.run [.hire, .accept 0 [spreadOnce]]).store.rows.get .byService
    ({} : Settings).validate = .ok {} ∧ ({} : Settings).bucketCount.toNat ≤ 2 ^ 31 ∧
    (seeded? 10 7 = some b ∧ (b.draws 3).1 = [4, 0, 1] ∧ ∀ bucket ∈ (b.draws 3).1, Scanned 10 bucket) ∧
    Setup.zipkin.openService = .ok zipkin ∧ rows.length = 1 ∧
    ∀ row ∈ rows, ∃ bucket, row.column? .byService "bucket" = some (.int bucket) ∧
      Scanned 10 bucket := by
  intro b rows
  have valid : ({} : Settings).validate = .ok {} := by decide
  have small : ({} : Settings).bucketCount.toNat ≤ 2 ^ 31 := by decide
  obtain ⟨-, -, hdraws, hrows⟩ := buckets_scanned_iff {} valid
  refine ⟨valid, small, ⟨rfl, by decide +kernel, hdraws.mpr small 7 b rfl 3⟩, zipkin_opened,
    by decide +kernel, fun row hrow => ?_⟩
  exact (hrows.mpr small _ zipkin [] _ rfl zipkin_opened .byService rfl row hrow).resolve_left
    fun h => List.not_mem_nil h.2

/-- With as many buckets as words allow, the first draw of the seed zero is bound below zero. -/
theorem drawn_below_zero :
    let settings : Settings := { bucketCount := 4294967295 }
    let b : RandomBuckets := ⟨4294967295, by decide, .seeded 0⟩
    settings.validate = .ok settings ∧ seeded? settings.bucketCount 0 = some b ∧
    (b.draws 1).1 = [-852725890] ∧ ¬ ∀ bucket ∈ (b.draws 1).1, Scanned settings.bucketCount bucket := by
  intro settings b
  have drawn : (b.draws 1).1 = [-852725890] := by decide +kernel
  refine ⟨by decide, rfl, drawn, fun hall => ?_⟩
  rw [drawn] at hall
  exact absurd (hall _ List.mem_cons_self) (by decide)

end RandomBuckets

end TraceIndex
