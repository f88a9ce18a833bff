import TraceIndex.Proofs.Operations
import TraceIndex.Proofs.Origins
import TraceIndex.Proofs.Sequence

namespace TraceIndex

/-- Every table tells a default, which is a number of seconds. -/
def Metadata.Tells (m : Metadata) (default : Table → UInt32) : Prop :=
  ∀ t, ∃ o, m.options t = .ok o ∧ o.defaultTtlSeconds t = .ok (default t)

namespace ExpiryPolicy

variable {m : Metadata} {default : Table → UInt32} {span index : UInt32}

def ofDefaults (span index : UInt32) (default : Table → UInt32) : ExpiryPolicy :=
  .ofFn fun t => ofDefault span index t (default t)

theorem resolve_of_tells (h : m.Tells default) :
    resolve m span index = .ok (ofDefaults span index default) := by
  have hread : ∀ t, resolveTable m span index t = .ok (ofDefault span index t (default t)) := by
    intro t
    obtain ⟨o, ho, hdefault⟩ := h t
    simp only [resolveTable, ho, bind, Except.bind, hdefault]
    rfl
  simp only [resolve, hread]
  rfl

def lifetime (span index : UInt32) (default : Table → UInt32) (t : Table) : UInt32 :=
  if 0 < default t then default t else if t = .traces then span else index

theorem binds_ofDefaults (t : Table) :
    ((ofDefaults span index default).get t).binds ↔ default t = 0 := by
  rw [ofDefaults, PerTable.get_ofFn, ofDefault]
  by_cases h : default t = 0
  · simp [h, Expiry.binds, Expiry.bound?]
  · simp [h, UInt32.pos_iff_ne_zero.mpr h, Expiry.binds, Expiry.bound?]

theorem bound?_or_default (t : Table) :
    (((ofDefaults span index default).get t).bound? <|>
      if 0 < default t then some (default t) else none) = some (lifetime span index default t) := by
  rw [ofDefaults, PerTable.get_ofFn, ofDefault, lifetime]
  split
  · rfl
  · simp [Expiry.bound?, secondsFor, Table.isFact]

end ExpiryPolicy

theorem Insert.endsWith_query (i : Insert) :
    Schema.endsWith i.query " USING TTL :ttl_" = i.bindsTtl := by
  obtain ⟨name, t, binds⟩ := i
  cases binds with
  | false =>
    simp only [Schema.endsWith, query, String.toList_append, List.reverse_append]
    rfl
  | true =>
    simp only [Schema.endsWith, query, String.toList_append, List.reverse_append]
    rfl

namespace Writer

variable {w : Writer} {e : Entry} {drawn : RandomBuckets} {st : Statement}

theorem statement_expiry (h : (w.statement e drawn).1 = .ok st) :
    st.insert.bindsTtl = (w.expiry.get st.table).binds ∧
      st.ttl = (w.expiry.get st.table).bound? := by
  obtain ⟨cells, bucket, -, rfl⟩ := cells_of_statement h
  exact ⟨rfl, rfl⟩

variable {k : Keyspace} {default : Table → UInt32} {span index : UInt32}

theorem rowOf_ttl (hw : w.expiry = .ofDefaults span index default)
    (hk : ∀ t, (k.options.get t).defaultTtlSeconds t = .ok (default t))
    (h : (w.statement e drawn).1 = .ok st) {row : Row} (hrow : k.rowOf st = .ok row) :
    row.ttl = some (ExpiryPolicy.lifetime span index default st.table) := by
  obtain ⟨-, -, key, -, rfl⟩ := Keyspace.rowOf_eq_ok.mp hrow
  have hdefault : k.defaultTtl? st.table =
      if 0 < default st.table then some (default st.table) else none := by
    rw [Keyspace.defaultTtl?, hk]
  rw [(statement_expiry h).2, hw, hdefault]
  exact ExpiryPolicy.bound?_or_default st.table

end Writer

/-- Whether statements are those of the writer, and the options are left as they are. -/
def Operation.KeepsTo (w : Writer) : Operation → Prop
  | .execute st => ∃ e drawn, (w.statement e drawn).1 = .ok st
  | .setOptions .. | .setOptionOnAll .. => False
  | .addFault _ | .clearFaults | .setReplication _ | .clear => True

namespace Keyspace

variable {w : Writer} {default : Table → UInt32} {span index : UInt32} {k : Keyspace}

theorem options_kept {history : History} (h : ∀ op ∈ history, op.KeepsTo w) :
    (k.after history).options = k.options := by
  induction history with
  | nil => rfl
  | cons op earlier ih =>
    obtain ⟨hop, hearlier⟩ := List.forall_mem_cons.mp h
    have ih := ih hearlier
    cases op with
    | execute st => exact tell_options.trans ih
    | addFault | clearFaults | setReplication | clear => exact ih
    | setOptions | setOptionOnAll => exact hop.elim

/-- Rows last as long as they should, those that were there before aside. -/
def Lasting (before : PerTable Rows) (lifetime : Table → UInt32) (k : Keyspace) : Prop :=
  ∀ t, ∀ row ∈ k.rows.get t, row ∈ before.get t ∨ row.ttl = some (lifetime t)

theorem lasting_after (hw : w.expiry = .ofDefaults span index default)
    (hk : ∀ t, (k.options.get t).defaultTtlSeconds t = .ok (default t)) {history : History}
    (h : ∀ op ∈ history, op.KeepsTo w) :
    (k.after history).Lasting k.rows (ExpiryPolicy.lifetime span index default) := by
  induction history with
  | nil => exact fun t row hrow => .inl hrow
  | cons op earlier ih =>
    obtain ⟨hop, hearlier⟩ := List.forall_mem_cons.mp h
    have ih := ih hearlier
    cases op with
    | addFault | clearFaults | setReplication => exact ih
    | setOptions | setOptionOnAll => exact hop.elim
    | clear =>
      exact fun t row hrow => absurd hrow not_mem_noRows
    | execute st =>
      obtain ⟨e, drawn, hst⟩ := hop
      have hoptions : ∀ t, ((k.after earlier).options.get t).defaultTtlSeconds t =
          .ok (default t) := by
        rw [options_kept hearlier]
        exact hk
      intro t row hrow
      obtain hold | ⟨rfl, hstored⟩ := row_of_tell hrow
      · exact ih t row hold
      · exact .inr (Writer.rowOf_ttl hw hoptions hst hstored)

end Keyspace

/-- If every table tells its default, it is settled for each how its rows expire. Then every
statement of a writer is valid: all its columns are bound, and an expiry is bound exactly if the
query has a place for it, which is if the table has no default of its own. A store without faults
does what it says. While the defaults stay as they are, whatever a writer stores lasts as long as
the table says, or else as the settings do, one way for spans and another for what leads to them. -/
theorem Writer.expires_as_configured (m : Metadata) (default : Table → UInt32)
    (span index : UInt32) (tells : m.Tells default) :
    ∃ policy, ExpiryPolicy.resolve m span index = .ok policy ∧ ∀ w : Writer, w.expiry = policy →
      (∀ e drawn st, (w.statement e drawn).1 = .ok st →
        st.validate = .ok () ∧ (∀ c ∈ st.insert.columns, (st.get? c).isSome) ∧
          (st.ttl.isSome ↔ Schema.endsWith st.insert.query " USING TTL :ttl_") ∧
          (Schema.endsWith st.insert.query " USING TTL :ttl_" ↔ default st.table = 0) ∧
          ∀ k : Keyspace, k.faults = [] → (k.execute st).1 = .ok ()) ∧
      ∀ (k : Keyspace) (history : History),
        (∀ t, (k.options.get t).defaultTtlSeconds t = .ok (default t)) →
        (∀ op ∈ history, op.KeepsTo w) →
        ∀ t, ∀ row ∈ (k.after history).rows.get t, row ∈ k.rows.get t ∨
          row.ttl = some (if 0 < default t then default t else if t = .traces then span else index) := by
  refine ⟨_, ExpiryPolicy.resolve_of_tells tells, fun w hw => ⟨?_, ?_⟩⟩
  · intro e drawn st hst
    obtain ⟨hbinds, httl⟩ := statement_expiry hst
    rw [Insert.endsWith_query]
    refine ⟨statement_validate hst, statement_bound hst, ?_, ?_, fun k => execute_statement hst⟩
    · rw [hbinds, httl, Expiry.binds]
    · rw [hbinds, hw]
      exact ExpiryPolicy.binds_ofDefaults st.table
  · intro k history hk hkeeps
    exact Keyspace.lasting_after hw hk hkeeps

def Keyspace.daily : Keyspace :=
  (named "zipkin").setOptions .traces (.ofList [(Options.defaultTtl, " +86400 ")])

def Keyspace.dailyDefault (t : Table) : UInt32 := if t = .traces then 86400 else 0

namespace Writer

theorem daily_tells : Keyspace.daily.metadata.Tells Keyspace.dailyDefault := by
  intro t
  cases t <;> exact ⟨_, rfl, rfl⟩

theorem expires_as_configured_daily :
    let w : Writer := ⟨.ofDefaults 604800 259200 Keyspace.dailyDefault, .daily, .msgpack, 256⟩
    let span := (Span.of "web" "get").write Packed.form
    let fact := w.bound .traces
      [traceId 1, time 5, ("span_name", .text "2"), ("span", .blob (Packed.print span))]
    let name := w.bound .serviceNames [("service_name", .text "web")]
    let history : History := [.execute name, .clearFaults, .execute name,
      .addFault (.onTable .serviceNames (.timeout "slow")), .execute fact]
    let k := Keyspace.daily.after history
    Keyspace.daily.metadata.Tells Keyspace.dailyDefault ∧
      (∀ t, (Keyspace.daily.options.get t).defaultTtlSeconds t = .ok (Keyspace.dailyDefault t)) ∧
      (∀ op ∈ history, op.KeepsTo w) ∧
      ExpiryPolicy.resolve Keyspace.daily.metadata 604800 259200 = .ok w.expiry ∧
      fact.validate = .ok () ∧ fact.ttl = none ∧ name.validate = .ok () ∧ name.ttl = some 259200 ∧
      (k.rows.get .traces).toList.map (·.ttl) = [some 86400] ∧
      (k.rows.get .serviceNames).toList.map (·.ttl) = [some 259200] ∧
      ∀ t, ∀ row ∈ k.rows.get t, row ∈ Keyspace.daily.rows.get t ∨ row.ttl =
        some (if 0 < Keyspace.dailyDefault t then Keyspace.dailyDefault t
          else if t = .traces then 604800 else 259200) := by
  intro w span fact name history k
  obtain ⟨policy, hpolicy, hw⟩ :=
    expires_as_configured Keyspace.daily.metadata Keyspace.dailyDefault 604800 259200 daily_tells
  obtain rfl : w.expiry = policy :=
    Except.ok.inj ((ExpiryPolicy.resolve_of_tells daily_tells).symm.trans hpolicy)
  obtain ⟨valid, lasting⟩ := hw w rfl
  have defaults : ∀ t,
      (Keyspace.daily.options.get t).defaultTtlSeconds t = .ok (Keyspace.dailyDefault t) := by
    intro t
    cases t <;> rfl
  have fact_sent : (w.statement (.trace (Span.of "web" "get") 5 "2") ⟨10, by decide, .seeded 0⟩).1 =
      .ok fact := rfl
  have name_sent : (w.statement (.serviceName "web") ⟨10, by decide, .seeded 0⟩).1 = .ok name := rfl
  have keeps : ∀ op ∈ history, op.KeepsTo w := by
    simp only [history, List.forall_mem_cons]
    exact ⟨⟨_, _, name_sent⟩, trivial, ⟨_, _, name_sent⟩, trivial, ⟨_, _, fact_sent⟩,
      fun _ h => absurd h List.not_mem_nil⟩
  refine ⟨daily_tells, defaults, keeps, hpolicy, (valid _ _ _ fact_sent).1, rfl,
    (valid _ _ _ name_sent).1, rfl, by rfl, by rfl, lasting _ history defaults keeps⟩

end Writer

namespace Service

variable {s : Service} {w : Writer} {past : List Report}

theorem answered_of_told {a : Action} {st : Statement} (h : st ∈ s.told a) :
    ∃ r, .answered st r ∈ s.reports a := by
  refine ⟨(s.store.execute st).1, ?_⟩
  have hreplies : .answered st (s.store.execute st).1 ∈ s.replies a :=
    List.mem_map.mpr ⟨st, h, rfl⟩
  cases a with
  | accept worker spans => exact List.mem_append_right _ hreplies
  | resolve fate ticket =>
    cases fate with
    | released => exact hreplies
    | abandoned => exact List.mem_append_right _ hreplies
  | _ => exact hreplies

theorem keepsTo_told (hs : Traced w past s) (a : Action) :
    ∀ op ∈ ((s.told a).map Operation.execute).reverse, op.KeepsTo w := by
  intro op hop
  obtain ⟨st, hst, rfl⟩ := List.mem_map.mp (List.mem_reverse.mp hop)
  obtain ⟨r, hr⟩ := answered_of_told hst
  have htraced := (traced_preserved w).act a hs
  obtain ⟨-, -, e, -, drawn, hstatement⟩ := htraced.answered st r (List.mem_append_right _ hr)
  exact ⟨e, drawn, hstatement⟩

theorem keepsTo_operations (hs : Traced w past s) {a : Action}
    (h : ∀ t o, a ≠ .setOptions t o) : ∀ op ∈ s.operations a, op.KeepsTo w := by
  cases a with
  | setOptions t o => exact absurd rfl (h t o)
  | setFaults faults =>
    intro op hop
    rw [operations, List.mem_append, List.mem_reverse, List.mem_map, List.mem_singleton] at hop
    obtain ⟨fault, -, rfl⟩ | rfl := hop <;> trivial
  | _ => exact keepsTo_told hs _

theorem keepsTo_run (hs : Traced w past s) {actions : List Action}
    (h : ∀ t o, .setOptions t o ∉ actions) : ∀ op ∈ s.operationsOf actions, op.KeepsTo w := by
  induction actions generalizing past s with
  | nil => exact fun op hop => absurd hop List.not_mem_nil
  | cons a rest ih =>
    rw [operationsOf, List.forall_mem_append]
    have hrest : ∀ t o, .setOptions t o ∉ rest := fun t o hmem => h t o (List.mem_cons_of_mem a hmem)
    have hfirst : ∀ t o, a ≠ .setOptions t o := fun t o ha => h t o (ha ▸ List.mem_cons_self)
    exact ⟨ih ((traced_preserved w).act a hs) hrest, keepsTo_operations hs hfirst⟩

/-- Whatever a run stores lasts as long as was settled when the service was opened, if no options
are changed since. -/
theorem rows_lasting (setup : Setup) (s : Service) (default : Table → UInt32)
    (actions : List Action) (opened : setup.openService = .ok s)
    (tells : setup.metadata.Tells default)
    (same : ∀ t, (setup.store.options.get t).defaultTtlSeconds t = .ok (default t))
    (kept : ∀ t o, .setOptions t o ∉ actions) :
    (s.run actions).store.Lasting setup.store.rows
      (ExpiryPolicy.lifetime setup.settings.spanTtl setup.settings.indexTtl default) := by
  have hresolve := (Setup.openService_parts opened).2.2.1
  rw [ExpiryPolicy.resolve_of_tells tells] at hresolve
  have hkeeps := keepsTo_run (traced_opened opened) kept
  rw [← store_opened opened] at same ⊢
  rw [run_store]
  exact Keyspace.lasting_after (Except.ok.inj hresolve).symm same hkeeps

end Service

end TraceIndex
