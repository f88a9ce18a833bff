import TraceIndex.Proofs.Sequence

namespace TraceIndex

def refusal? {ε α : Type} : Except ε α → Option ε
  | .ok _ => none
  | .error e => some e

section Refusals

variable {ε ε' α β : Type}

theorem refusal?_eq_some {r : Except ε α} {e : ε} : refusal? r = some e ↔ r = .error e := by
  cases r <;> simp [refusal?]

theorem refusal?_eq_none {r : Except ε α} : refusal? r = none ↔ ∃ a, r = .ok a := by
  cases r <;> simp [refusal?]

@[simp] theorem refusal?_mapError (r : Except ε α) (f : ε → ε') :
    refusal? (r.mapError f) = (refusal? r).map f := by
  cases r <;> rfl

theorem refusal?_bind {r : Except ε α} {f : α → Except ε β} {later : Option ε}
    (h : ∀ a, r = .ok a → refusal? (f a) = later) : refusal? (r >>= f) = (refusal? r).or later := by
  cases r with
  | error e => rfl
  | ok a => exact h a rfl

theorem findSome?_cons_or (f : α → Option β) (a : α) (as : List α) :
    (a :: as).findSome? f = (f a).or (as.findSome? f) := by
  rw [List.findSome?_cons]
  cases f a <;> rfl

theorem findSome?_flatMap {γ : Type} (f : β → Option γ) (g : α → List β) (as : List α) :
    (as.flatMap g).findSome? f = as.findSome? fun a => (g a).findSome? f := by
  induction as with
  | nil => rfl
  | cons a as ih => rw [List.flatMap_cons, List.findSome?_append, findSome?_cons_or, ih]

theorem refusal?_bind_pure (r : Except ε α) (f : α → β) :
    refusal? (r >>= fun a => pure (f a)) = refusal? r := by
  cases r <;> rfl

end Refusals

/-- What is looked at while a service is opened. -/
inductive Stage
  | settings
  | replication
  | compaction
  | options (t : Table)
  | expiry (t : Table)
  deriving DecidableEq, Repr

namespace Stage

def ofTable (t : Table) : List Stage := [options t, expiry t]

def all : List Stage := [settings, replication, compaction] ++ Table.all.flatMap ofTable

end Stage

namespace Setup

variable (s : Setup)

/-- What is wrong with a stage, whatever the others are like. -/
def fault? : Stage → Option Failure
  | .settings => (refusal? s.settings.validate).map problemFailure
  | .replication => (refusal? s.metadata.replication).map Failure.ofStore
  | .compaction => (refusal? (s.metadata.options .traces)).map Failure.ofStore
  | .options t => (refusal? (s.metadata.options t)).map Failure.ofStore
  | .expiry t =>
    ((s.metadata.options t).toOption.bind fun o => refusal? (o.defaultTtlSeconds t)).map
      Failure.ofStore

theorem refusal?_read :
    (refusal? (Schema.read s.metadata)).map Failure.ofStore =
      [Stage.replication, .compaction].findSome? s.fault? := by
  have hread : refusal? (Schema.read s.metadata) =
      (refusal? s.metadata.replication).or (refusal? (s.metadata.options .traces)) :=
    refusal?_bind fun _ _ => refusal?_bind_pure ..
  simp only [hread, Option.map_or, findSome?_cons_or, fault?, List.findSome?_nil, Option.or_none]

theorem refusal?_resolveTable (span index : UInt32) (t : Table) :
    (refusal? (ExpiryPolicy.resolveTable s.metadata span index t)).map Failure.ofStore =
      (Stage.ofTable t).findSome? s.fault? := by
  simp only [ExpiryPolicy.resolveTable, Stage.ofTable, findSome?_cons_or, List.findSome?_nil, fault?]
  cases s.metadata.options t with
  | error e => rfl
  | ok options =>
    cases h : options.defaultTtlSeconds t with
    | error e => simp [bind, Except.bind, refusal?, Except.toOption, h]
    | ok n => simp [bind, Except.bind, refusal?, Except.toOption, pure, Except.pure, h]

theorem refusal?_resolve (span index : UInt32) :
    (refusal? (ExpiryPolicy.resolve s.metadata span index)).map Failure.ofStore =
      (Table.all.flatMap Stage.ofTable).findSome? s.fault? := by
  have hresolve : refusal? (ExpiryPolicy.resolve s.metadata span index) =
      Table.all.findSome? fun t => refusal? (ExpiryPolicy.resolveTable s.metadata span index t) := by
    simp only [Table.all, findSome?_cons_or, List.findSome?_nil, Option.or_none]
    exact refusal?_bind fun _ _ => refusal?_bind fun _ _ => refusal?_bind fun _ _ =>
      refusal?_bind fun _ _ => refusal?_bind fun _ _ => refusal?_bind fun _ _ =>
      refusal?_bind_pure ..
  rw [hresolve, findSome?_flatMap]
  generalize Table.all = tables
  induction tables with
  | nil => rfl
  | cons t tables ih =>
    rw [findSome?_cons_or, findSome?_cons_or, Option.map_or, ih, refusal?_resolveTable]

theorem bucketsOf_of_validate {settings valid : Settings} (h : settings.validate = .ok valid)
    (words : Words) : ∃ buckets, bucketsOf settings words = .ok buckets := by
  simp only [Settings.validate] at h
  repeat' split at h
  all_goals try cases h
  rename_i hcount _ hwindow _
  have hwide : narrowestWindow ≤ settings.durationWindow := Int64.not_lt.mp hwindow
  simp [bucketsOf, RandomBuckets.ofWords?, DurationBuckets.ofWindow?, hcount, hwide, pure,
    Except.pure]

theorem refusal?_openService : refusal? s.openService = Stage.all.findSome? s.fault? := by
  have hstages : Stage.all.findSome? s.fault? =
      ((refusal? s.settings.validate).map problemFailure).or
        (([Stage.replication, .compaction].findSome? s.fault?).or
          ((Table.all.flatMap Stage.ofTable).findSome? s.fault?)) := by
    rw [← List.findSome?_append]
    exact findSome?_cons_or ..
  rw [hstages, ← refusal?_read, ← refusal?_resolve s s.settings.spanTtl s.settings.indexTtl,
    ← refusal?_mapError, ← refusal?_mapError, ← refusal?_mapError]
  apply refusal?_bind
  intro valid hvalid
  obtain rfl := validate_eq (eq_of_mapError hvalid)
  have hbuckets : refusal? (bucketsOf s.settings s.words) = none :=
    refusal?_eq_none.mpr (bucketsOf_of_validate (eq_of_mapError hvalid) _)
  refine (refusal?_bind fun _ _ => refusal?_bind fun _ _ => refusal?_bind_pure ..).trans ?_
  rw [hbuckets, Option.none_or]

theorem faultless_ofTable (t : Table) :
    s.fault? (.options t) = none ∧ s.fault? (.expiry t) = none ↔
      ∃ o n, s.metadata.options t = .ok o ∧ o.defaultTtlSeconds t = .ok n := by
  simp only [fault?, Option.map_eq_none_iff, refusal?_eq_none]
  cases s.metadata.options t with
  | error e => simp
  | ok o => simp [Except.toOption, refusal?_eq_none]

theorem faultless_iff :
    (∀ stage ∈ Stage.all, s.fault? stage = none) ↔
      (∃ valid, s.settings.validate = .ok valid) ∧ (∃ r, s.metadata.replication = .ok r) ∧
        ∀ t, ∃ o n, s.metadata.options t = .ok o ∧ o.defaultTtlSeconds t = .ok n := by
  simp only [← faultless_ofTable]
  constructor
  · intro h
    have hsettings := h .settings (by decide)
    have hreplication := h .replication (by decide)
    simp only [fault?, Option.map_eq_none_iff, refusal?_eq_none] at hsettings hreplication
    refine ⟨hsettings, hreplication, fun t => ⟨h _ ?_, h _ ?_⟩⟩ <;> cases t <;> decide
  · rintro ⟨hsettings, hreplication, htables⟩ stage -
    cases stage with
    | settings => exact Option.map_eq_none_iff.mpr (refusal?_eq_none.mpr hsettings)
    | replication => exact Option.map_eq_none_iff.mpr (refusal?_eq_none.mpr hreplication)
    | compaction => exact (htables .traces).1
    | options t => exact (htables t).1
    | expiry t => exact (htables t).2

/-- A service opens exactly if its settings are valid, the replication can be read, and the options
of each table can and tell a default expiry. Otherwise the failure is that of the first stage at
fault. Valid settings are not refused their buckets, and a service that opens has executed
nothing. -/
theorem openService_first_fault :
    ((∃ t, s.openService = .ok t) ↔
      (∃ valid, s.settings.validate = .ok valid) ∧ (∃ r, s.metadata.replication = .ok r) ∧
        ∀ t, ∃ o n, s.metadata.options t = .ok o ∧ o.defaultTtlSeconds t = .ok n) ∧
    (∀ f, s.openService = .error f ↔ Stage.all.findSome? s.fault? = some f) ∧
    (∀ valid words, s.settings.validate = .ok valid →
      ∃ buckets, bucketsOf s.settings words = .ok buckets) ∧
    ∀ t, s.openService = .ok t →
      t.store = s.store ∧ t.held = [] ∧ t.issued = 0 ∧ t.metrics = {} := by
  refine ⟨?_, fun f => ?_, fun valid words h => bucketsOf_of_validate h words, fun t h => ?_⟩
  · rw [← faultless_iff, ← List.findSome?_eq_none_iff, ← refusal?_openService, refusal?_eq_none]
  · rw [← refusal?_openService, refusal?_eq_some]
  · obtain ⟨schema, expiry, random, durations, rfl⟩ := openService_eq_ok h
    exact ⟨rfl, rfl, rfl, rfl⟩

def mute : Setup :=
  { ephemeral "zipkin" with
    metadata :=
      ⟨"zipkin", .error (.metadata "no such keyspace"), fun t => .error (.timeout t.name)⟩ }

theorem openService_first_fault_mute :
    mute.openService = .error (.metadata "no such keyspace") ∧
    Setup.zipkin.settings.validate = .ok {} ∧
    (∃ buckets, bucketsOf {} (.seeded 7) = .ok buckets) ∧
    Setup.zipkin.openService = .ok Service.zipkin ∧ Service.zipkin.store = .named "zipkin" ∧
    Service.zipkin.issued = 0 := by
  have fault := (openService_first_fault mute).2.1 (.metadata "no such keyspace")
  have sound := openService_first_fault Setup.zipkin
  have valid : Setup.zipkin.settings.validate = .ok {} := by decide
  have untouched := sound.2.2.2 Service.zipkin Service.zipkin_opened
  exact ⟨fault.mpr (by decide), valid, sound.2.2.1 {} (.seeded 7) valid, Service.zipkin_opened, untouched.1,
    untouched.2.2.1⟩

end Setup

end TraceIndex
