import Mathlib.Data.List.Pairwise
import TraceIndex.Proofs.Fanout
import TraceIndex.Proofs.Keys
import TraceIndex.Proofs.Names
import TraceIndex.Proofs.Runs

namespace TraceIndex

namespace Entry

def nameKey : Entry → List Cell
  | serviceName service => [.text service]
  | spanName service name => [.text service, .int 0, .text name]
  | _ => []

theorem eq_of_nameKey {e e' : Entry} (h : e.mark?.isSome) (h' : e'.mark?.isSome)
    (htable : e.table = e'.table) (hkey : e.nameKey = e'.nameKey) : e = e' := by
  cases e with
  | serviceName service =>
    cases e' with
    | serviceName service' => simpa [nameKey] using hkey
    | spanName => cases htable
    | trace | byService | bySpanName | byAnnotationKey | byDuration => cases h'
  | spanName service name =>
    cases e' with
    | spanName service' name' => simpa [nameKey] using hkey
    | serviceName => cases htable
    | trace | byService | bySpanName | byAnnotationKey | byDuration => cases h'
  | trace | byService | bySpanName | byAnnotationKey | byDuration => cases h

theorem mark?_isSome_iff (e : Entry) :
    e.mark?.isSome ↔ e.table = .serviceNames ∨ e.table = .spanNames := by
  cases e <;> simp [mark?, table]

end Entry

namespace Writer

variable {w : Writer} {e : Entry} {drawn : RandomBuckets} {st : Statement}

theorem statement_table (h : (w.statement e drawn).1 = .ok st) : st.table = e.table := by
  obtain ⟨cells, bucket, -, rfl⟩ := cells_of_statement h
  rfl

theorem statement_nameKey (h : (w.statement e drawn).1 = .ok st) (hm : e.mark?.isSome) :
    st.primaryKey? = some e.nameKey := by
  obtain ⟨cells, bucket, hc, rfl⟩ := cells_of_statement h
  cases e with
  | serviceName service =>
    cases required_of_bind hc
    rfl
  | spanName service name =>
    cases required_of_bind (required_of_bind hc)
    rfl
  | trace | byService | bySpanName | byAnnotationKey | byDuration => cases hm

theorem statement_of_name (w : Writer) (drawn : RandomBuckets) (h : e.Filled)
    (hm : e.mark?.isSome) : ∃ st, (w.statement e drawn).1 = .ok st := by
  have hplan := (w.statement_plan h drawn).1
  cases hs : (w.statement e drawn).1 with
  | ok st => exact ⟨st, rfl⟩
  | error failure =>
    rw [hs] at hplan
    cases e with
    | serviceName | spanName => cases hplan
    | trace | byService | bySpanName | byAnnotationKey | byDuration => cases hm

end Writer

namespace Span

variable (s : Span) (key : List Cell)

theorem mem_names_iff {e : Entry} :
    e ∈ s.names ↔ ∃ service ∈ s.services,
      e = .serviceName service ∨ s.name ≠ "" ∧ e = .spanName service s.name := by
  by_cases hname : s.name = "" <;> simp [names, namesUnder, hname]

theorem names_services :
    (∃ e ∈ s.names, e.table = .serviceNames ∧ e.nameKey = key) ↔
      ∃ service ∈ s.services, key = [.text service] := by
  simp only [mem_names_iff]
  constructor
  · rintro ⟨-, ⟨service, hservice, rfl | ⟨-, rfl⟩⟩, htable, rfl⟩
    · exact ⟨service, hservice, rfl⟩
    · cases htable
  · rintro ⟨service, hservice, rfl⟩
    exact ⟨.serviceName service, ⟨service, hservice, .inl rfl⟩, rfl, rfl⟩

theorem names_spanNames :
    (∃ e ∈ s.names, e.table = .spanNames ∧ e.nameKey = key) ↔
      s.name ≠ "" ∧ ∃ service ∈ s.services, key = [.text service, .int 0, .text s.name] := by
  simp only [mem_names_iff]
  constructor
  · rintro ⟨-, ⟨service, hservice, rfl | ⟨hname, rfl⟩⟩, htable, rfl⟩
    · cases htable
    · exact ⟨hname, service, hservice, rfl⟩
  · rintro ⟨hname, service, hservice, rfl⟩
    exact ⟨.spanName service s.name, ⟨service, hservice, .inr ⟨hname, rfl⟩⟩, rfl, rfl⟩

end Span

/-- A statement of the run that an accepted span called for. -/
def Recorded (w : Writer) (past : List Report) (st : Statement) : Prop :=
  ∃ span, .accepted span ∈ past ∧ ∃ e ∈ span.normalize.entries,
    ∃ drawn : RandomBuckets, (w.statement e drawn).1 = .ok st

def Left (past : List Report) (t : Table) (key : List Cell) : Prop :=
  ∃ st, .answered st (.ok ()) ∈ past ∧ st.table = t ∧ st.primaryKey? = some key

theorem Recorded.append {w : Writer} {past : List Report} {st : Statement}
    (h : Recorded w past st) (more : List Report) : Recorded w (past ++ more) st := by
  obtain ⟨span, hspan, he⟩ := h
  exact ⟨span, List.mem_append_left _ hspan, he⟩

theorem left_append (past more : List Report) (t : Table) (key : List Cell) :
    Left (past ++ more) t key ↔ Left past t key ∨ Left more t key := by
  simp only [Left, List.mem_append, or_and_right, exists_or]

def Report.isFault : Report → Bool
  | .answered _ (.error _) => true
  | _ => false

def Report.isAnswer : Report → Bool
  | .answered .. => true
  | .accepted _ => false

def Faultless (past : List Report) : Prop := ∀ r ∈ past, r.isFault = false

instance (past : List Report) : Decidable (Faultless past) :=
  inferInstanceAs (Decidable (∀ r ∈ past, r.isFault = false))

theorem Faultless.reply_ok {past : List Report} (h : Faultless past) {st : Statement}
    {r : Except StoreFailure Unit} (hr : .answered st r ∈ past) : r = .ok () := by
  cases r with
  | ok => rfl
  | error failure => exact absurd (h _ hr) (by simp [Report.isFault])

theorem faultless_append {past more : List Report} :
    Faultless (past ++ more) ↔ Faultless past ∧ Faultless more :=
  List.forall_mem_append

namespace Service

variable {past : List Report} {s t : Service}

structure Traced (w : Writer) (past : List Report) (s : Service) : Prop where
  writer : s.writer = w
  answered : ∀ st r, .answered st r ∈ past → Recorded w past st
  held : ∀ h ∈ s.held, Recorded w past h.2

theorem recorded_of_started {worker : Nat} {marks : Marks} {spans : List Span}
    (h : s.workers[worker]? = some marks) {a : Attempt} (ha : a ∈ s.started marks spans)
    {st : Statement} (hst : a.sent? = some st) :
    Recorded s.writer (past ++ s.reports (.accept worker spans)) st := by
  obtain ⟨e, he, drawn, rfl⟩ := mem_started ha
  obtain ⟨span, hspan, he⟩ := mem_entriesOf.mp he
  refine ⟨span, List.mem_append_right _ ?_, e, he, drawn, Attempt.sent?_eq_some.mp hst⟩
  rw [reports_accept h]
  exact List.mem_append_left _ (List.mem_map.mpr ⟨span, hspan, rfl⟩)

theorem traced_preserved (w : Writer) : Preserved (Traced w) where
  hire _ _ hs := ⟨hs.writer, hs.answered, hs.held⟩
  accept past s worker marks spans h hs := by
    obtain rfl := hs.writer
    refine ⟨by rw [accept_eq h]; rfl, ?_, ?_⟩
    · intro st r hst
      obtain hst | hst := List.mem_append.mp hst
      · exact (hs.answered st r hst).append _
      · obtain ⟨a, ha, hsent⟩ := sent_of_answered h hst
        exact recorded_of_started h ha hsent
    · intro g hg
      rw [accept_held h] at hg
      obtain hg | hg := List.mem_append.mp hg
      · exact (hs.held g hg).append _
      · obtain ⟨i, a, ha, -, hst, -⟩ := mem_heldBack hg
        exact recorded_of_started h (List.mem_of_getElem? ha) hst
  tends past s t h hs := by
    obtain ⟨_, _, _, _, _, _, -, -, rfl⟩ := h
    exact ⟨hs.writer, hs.answered, hs.held⟩
  resolve past s fate h hh hs := by
    have hmem := (mem_held_of_heldUnder? hh).1
    rw [resolveUnder_of_some hh]
    refine ⟨hs.writer, ?_, ?_⟩
    · intro st r hst
      obtain hst | hst := List.mem_append.mp hst
      · exact (hs.answered st r hst).append _
      · cases List.mem_singleton.mp hst
        exact (hs.held h hmem).append _
    · intro g hg
      exact (hs.held g (List.mem_of_mem_filter hg)).append _
  look _ _ _ hs := ⟨hs.writer, hs.answered, hs.held⟩
  set _ _ _ _ _ hs := ⟨hs.writer, hs.answered, hs.held⟩

theorem keys_preserved (before : Table → List (List Cell)) : Preserved fun past s =>
    ∀ t key, key ∈ s.store.keys t ↔ key ∈ before t ∨ Left past t key where
  hire _ _ hs := hs
  accept past s worker marks spans h hs := by
    intro t key
    have hleft : Left (s.reports (.accept worker spans)) t key ↔
        ∃ st ∈ (s.started marks spans).filterMap s.direct?, s.store.Leaves t key st := by
      simp only [Left, Keyspace.Leaves, Keyspace.applies_iff_ok, answered_accept h, and_assoc]
    have hkeys : key ∈ (s.accept worker spans).store.keys t ↔ key ∈ s.store.keys t ∨
        ∃ st ∈ (s.started marks spans).filterMap s.direct?, s.store.Leaves t key st := by
      rw [accept_store h]
      exact Keyspace.mem_keys_tellAll t key _
    rw [hkeys, hs t key, left_append, hleft, or_assoc]
  tends past s t h hs := by
    rw [h.frame.2.2]
    exact hs
  resolve past s fate h hh hs := by
    intro t key
    have hleft : Left [.answered h.2 (s.replyTo h.2 fate)] t key ↔
        s.replyTo h.2 fate = .ok () ∧ h.2.table = t ∧ h.2.primaryKey? = some key := by
      simp [Left, eq_comm]
    rw [resolveUnder_of_some hh, left_append, ← or_assoc, ← hs t key, hleft]
    cases fate with
    | released =>
      rw [replyTo, ← Keyspace.applies_iff_ok]
      exact Keyspace.mem_keys_tell t key
    | abandoned => simp [replyTo, storeAfter]
  look _ _ _ hs := hs
  set _ _ _ _ _ hs := hs

/-- A statement has left its row, or is held back. -/
def Underway (past : List Report) (s : Service) (st : Statement) : Prop :=
  .answered st (.ok ()) ∈ past ∨ ∃ h ∈ s.held, h.2 = st

def Sent (past : List Report) (s : Service) (key : String) : Prop :=
  ∃ st, st.mark? = some key ∧ Underway past s st

/-- Every name that is live or was accepted is written under its mark. -/
structure Covered (past : List Report) (s : Service) : Prop where
  live : ∀ (worker : Nat) (m : Marks) (key : String), s.workers[worker]? = some m → m.Live key →
    Sent past s key
  accepted : ∀ span, .accepted span ∈ past → ∀ key ∈ span.normalize.nameKeys, Sent past s key
  ticketed : s.Ticketed

/-- What was held back still is, or has been stored since. -/
def Keeps (s t : Service) (more : List Report) : Prop :=
  ∀ g ∈ s.held, g ∈ t.held ∨ .answered g.2 (.ok ()) ∈ more

theorem Underway.mono {more : List Report} {st : Statement} (h : Underway past s st)
    (hkeeps : Keeps s t more) : Underway (past ++ more) t st := by
  obtain hanswered | ⟨g, hg, rfl⟩ := h
  · exact .inl (List.mem_append_left _ hanswered)
  · obtain hg | hanswered := hkeeps g hg
    · exact .inr ⟨g, hg, rfl⟩
    · exact .inl (List.mem_append_right _ hanswered)

theorem Sent.mono {more : List Report} {key : String} (h : Sent past s key)
    (hkeeps : Keeps s t more) : Sent (past ++ more) t key := by
  obtain ⟨st, hmark, hunderway⟩ := h
  exact ⟨st, hmark, hunderway.mono hkeeps⟩

theorem keeps_resolve (hs : s.Ticketed) (fate : Fate) {h : Nat × Statement}
    (hh : s.heldUnder? h.1 = some h) (hok : s.replyTo h.2 fate = .ok ()) :
    Keeps s (s.resolveUnder fate h.1) [.answered h.2 (s.replyTo h.2 fate)] := by
  intro g hg
  by_cases hticket : g.1 = h.1
  · obtain rfl := hs.eq_of_ticket hg (mem_held_of_heldUnder? hh).1 hticket
    rw [hok]
    exact .inr (List.mem_singleton_self _)
  · rw [resolveUnder_of_some hh]
    exact .inl (List.mem_filter.mpr ⟨hg, decide_eq_true hticket⟩)

theorem Covered.frame (hs : Covered past s) (hheld : t.held = s.held)
    (hissued : t.issued = s.issued)
    (hlive : ∀ (w : Nat) (m : Marks) (key : String), t.workers[w]? = some m → m.Live key →
      ∃ m₀, s.workers[w]? = some m₀ ∧ m₀.Live key) : Covered past t := by
  have hsent : ∀ key, Sent past s key → Sent past t key := by
    intro key h
    simpa only [Sent, Underway, hheld] using h
  refine ⟨?_, ?_, hs.ticketed.frame hheld hissued⟩
  · intro w m key hm hl
    obtain ⟨m₀, hm₀, hl₀⟩ := hlive w m key hm hl
    exact hsent key (hs.live w m₀ key hm₀ hl₀)
  · intro span hspan key hkey
    exact hsent key (hs.accepted span hspan key hkey)

section Accept

variable {worker : Nat} {marks : Marks} {spans : List Span}

theorem sent_of_mark {a : Attempt} {key : String} (ha : a ∈ s.started marks spans)
    (hkey : a.mark = some key) : ∃ st, a.sent? = some st := by
  obtain ⟨e, he, drawn, rfl⟩ := mem_started ha
  have hname : e.mark?.isSome := Option.isSome_iff_exists.mpr ⟨key, hkey⟩
  obtain ⟨st, hst⟩ := s.writer.statement_of_name drawn (filled_of_mem_entriesOf he) hname
  exact ⟨st, Attempt.sent?_eq_some.mpr hst⟩

theorem underway_of_started (h : s.workers[worker]? = some marks)
    (hfaultless : Faultless (s.reports (.accept worker spans))) {a : Attempt} {st : Statement}
    (ha : a ∈ s.started marks spans) (hsent : a.sent? = some st) :
    Underway (past ++ s.reports (.accept worker spans)) (s.accept worker spans) st := by
  by_cases hgate : st.table ∈ s.gate
  · have hmem : st ∈ (s.heldBack s.issued (s.started marks spans)).map (·.2) := by
      rw [heldBack_statements, List.mem_filter]
      exact ⟨List.mem_filterMap.mpr ⟨_, ha, hsent⟩, decide_eq_true hgate⟩
    obtain ⟨g, hg, rfl⟩ := List.mem_map.mp hmem
    refine .inr ⟨g, ?_, rfl⟩
    rw [accept_held h]
    exact List.mem_append_right _ hg
  · have hmem : st ∈ (s.started marks spans).filterMap s.direct? := by
      rw [direct_statements, List.mem_filter]
      exact ⟨List.mem_filterMap.mpr ⟨_, ha, hsent⟩, decide_eq_true hgate⟩
    have hanswered := (answered_accept h).mpr ⟨hmem, rfl⟩
    rw [hfaultless.reply_ok hanswered] at hanswered
    exact .inl (List.mem_append_right _ hanswered)

theorem sent_of_started (h : s.workers[worker]? = some marks)
    (hfaultless : Faultless (s.reports (.accept worker spans))) {a : Attempt} {key : String}
    (ha : a ∈ s.started marks spans) (hkey : a.mark = some key) :
    Sent (past ++ s.reports (.accept worker spans)) (s.accept worker spans) key := by
  obtain ⟨st, hsent⟩ := sent_of_mark ha hkey
  exact ⟨st, (mark?_of_started ha hsent).trans hkey, underway_of_started h hfaultless ha hsent⟩

variable (spans) in
theorem keeps_accept (h : s.workers[worker]? = some marks) (more : List Report) :
    Keeps s (s.accept worker spans) more := by
  intro g hg
  rw [accept_held h]
  exact .inl (List.mem_append_left _ hg)

theorem covered_accept (h : s.workers[worker]? = some marks) (hs : Covered past s)
    (hfaultless : Faultless (s.reports (.accept worker spans))) :
    Covered (past ++ s.reports (.accept worker spans)) (s.accept worker spans) := by
  have hheld := keeps_accept spans h (s.reports (.accept worker spans))
  have hlive : ∀ (w : Nat) (m : Marks) (key : String), s.workers[w]? = some m → m.Live key →
      Sent (past ++ s.reports (.accept worker spans)) (s.accept worker spans) key := by
    intro w m key hm hl
    exact (hs.live w m key hm hl).mono hheld
  refine ⟨?_, ?_, ticketed_accept h hs.ticketed⟩
  · intro w m key hm hl
    obtain ⟨m₀, hm₀, hl₀, -⟩ | ⟨-, a, ha, hkey⟩ := live_accept h hm hl
    · exact hlive w m₀ key hm₀ hl₀
    · exact sent_of_started h hfaultless ha hkey
  · intro span hspan key hkey
    obtain hspan | hspan := List.mem_append.mp hspan
    · exact (hs.accepted span hspan key hkey).mono hheld
    · rw [reports_accept h] at hspan
      have hmem : span ∈ spans := by simpa using hspan
      have hkeys : key ∈ nameKeysOf spans :=
        List.mem_flatMap.mpr ⟨_, List.mem_map_of_mem hmem, hkey⟩
      obtain hforce | ⟨a, ha, hmark⟩ := inForce_or_started hkeys
      · exact hlive worker marks key h hforce.live
      · exact sent_of_started h hfaultless ha hmark

end Accept

theorem covered_resolve (hs : Covered past s) (fate : Fate) {h : Nat × Statement}
    (hh : s.heldUnder? h.1 = some h) (hok : s.replyTo h.2 fate = .ok ()) :
    Covered (past ++ [.answered h.2 (s.replyTo h.2 fate)]) (s.resolveUnder fate h.1) := by
  have hticketed := ticketed_resolve hs.ticketed fate hh
  have hheld := keeps_resolve hs.ticketed fate hh hok
  refine ⟨?_, ?_, hticketed⟩
  · intro w m key hm hl
    rw [resolveUnder_of_some hh] at hm
    exact (hs.live w m key hm hl).mono hheld
  · intro span hspan key hkey
    obtain hspan | hspan := List.mem_append.mp hspan
    · exact (hs.accepted span hspan key hkey).mono hheld
    · cases List.mem_singleton.mp hspan

theorem covered_tends (hs : Covered past s) (h : Tends s t) : Covered past t := by
  apply hs.frame h.frame.1 h.frame.2.1
  intro w m key hm hl
  obtain ⟨i, b, b', keys, notices, metrics, -, -, rfl⟩ := h
  obtain ⟨m₀, hm₀, hl₀, -, -⟩ := live_revert hm hl
  exact ⟨m₀, hm₀, hl₀⟩

theorem covered_preserved : Preserved fun past s => Faultless past → Covered past s where
  hire past s hs hfaultless := by
    refine (hs hfaultless).frame rfl rfl ?_
    intro w m key hm hl
    exact ⟨m, live_addWorker hm hl, hl⟩
  accept past s worker marks spans h hs hfaultless := by
    obtain ⟨hpast, hnew⟩ := faultless_append.mp hfaultless
    exact covered_accept h (hs hpast) hnew
  tends past s t h hs hfaultless := covered_tends (hs hfaultless) h
  resolve past s fate h hh hs hfaultless := by
    obtain ⟨hpast, hnew⟩ := faultless_append.mp hfaultless
    exact covered_resolve (hs hpast) fate hh (hnew.reply_ok (List.mem_singleton_self _))
  look past s worker hs hfaultless := by
    refine (hs hfaultless).frame rfl rfl ?_
    intro w m key hm hl
    obtain ⟨m₀, hm₀, hl₀, -⟩ := live_look hm hl
    exact ⟨m₀, hm₀, hl₀⟩
  set past s clock faults options hs hfaultless := by
    refine (hs hfaultless).frame rfl rfl ?_
    intro w m key hm hl
    exact ⟨m, hm, hl⟩

/-- The tables of names hold the names of the accepted spans and nothing else. -/
structure NamesExact (past : List Report) (k : Keyspace) : Prop where
  services : ∀ key, key ∈ k.keys .serviceNames ↔
    ∃ span, .accepted span ∈ past ∧ ∃ service ∈ span.normalize.services, key = [.text service]
  spanNames : ∀ key, key ∈ k.keys .spanNames ↔
    ∃ span, .accepted span ∈ past ∧ span.name ≠ "" ∧
      ∃ service ∈ span.normalize.services, key = [.text service, .int 0, .text span.name]

theorem namesExact_iff {k : Keyspace} :
    NamesExact past k ↔ ∀ t, t = .serviceNames ∨ t = .spanNames → ∀ key, key ∈ k.keys t ↔
      ∃ span, .accepted span ∈ past ∧
        ∃ e ∈ span.normalize.names, e.table = t ∧ e.nameKey = key := by
  constructor
  · rintro h t (rfl | rfl) key
    · simp only [h.services, Span.names_services]
    · simp only [h.spanNames, Span.names_spanNames]
      rfl
  · intro h
    refine ⟨fun key => ?_, fun key => ?_⟩
    · simp only [h _ (.inl rfl), Span.names_services]
    · simp only [h _ (.inr rfl), Span.names_spanNames]
      rfl

/-- No two different names of these spans have one mark. -/
def MarksApart (known : Span → Prop) : Prop :=
  ∀ p q, known p → known q → ∀ e ∈ p.normalize.names, ∀ e' ∈ q.normalize.names,
    e.mark? = e'.mark? → e = e'

theorem Traced.name_of_left {w : Writer} (hs : Traced w past s) {t : Table} {key : List Cell}
    (ht : t = .serviceNames ∨ t = .spanNames) (h : Left past t key) :
    ∃ st, .answered st (.ok ()) ∈ past ∧ ∃ span, .accepted span ∈ past ∧
      ∃ e ∈ span.normalize.names, st.name? = some e ∧ e.table = t ∧ e.nameKey = key := by
  obtain ⟨st, hst, htable, hkey⟩ := h
  obtain ⟨span, hspan, e, he, drawn, hstatement⟩ := hs.answered st _ hst
  have htable' : e.table = t := (Writer.statement_table hstatement).symm.trans htable
  have hname : e.mark?.isSome := e.mark?_isSome_iff.mpr (htable' ▸ ht)
  have hkey' := (Writer.statement_nameKey hstatement hname).symm.trans hkey
  have htold : st.name? = some e := by rw [Writer.statement_name? hstatement, if_pos hname]
  exact ⟨st, hst, span, hspan, e, span.normalize.mem_names.mpr ⟨he, hname⟩, htold, htable',
    Option.some.inj hkey'⟩

theorem namesExact_of_marksApart {w : Writer} {before : Table → List (List Cell)}
    (htraced : Traced w past s)
    (hkeys : ∀ t key, key ∈ s.store.keys t ↔ key ∈ before t ∨ Left past t key)
    (hcovered : Covered past s) (hheld : s.held = [])
    (hbefore : before .serviceNames = [] ∧ before .spanNames = [])
    (hapart : MarksApart fun span => .accepted span ∈ past) : NamesExact past s.store := by
  apply namesExact_iff.mpr
  intro t ht key
  have hempty : before t = [] := ht.elim (· ▸ hbefore.1) (· ▸ hbefore.2)
  rw [hkeys, hempty, or_iff_right List.not_mem_nil]
  constructor
  · intro hleft
    obtain ⟨-, -, span, hspan, e, he, -, htable, hkey⟩ := htraced.name_of_left ht hleft
    exact ⟨span, hspan, e, he, htable, hkey⟩
  · rintro ⟨span, hspan, e, he, rfl, rfl⟩
    obtain ⟨mark, hmark⟩ := Option.isSome_iff_exists.mp (span.normalize.mem_names.mp he).2
    have hmem : mark ∈ span.normalize.nameKeys := List.mem_filterMap.mpr ⟨e, he, hmark⟩
    obtain ⟨st, hst, hanswered | ⟨g, hg, -⟩⟩ := hcovered.accepted span hspan mark hmem
    -- What is stored under the mark is a name with the mark, and there is one only.
    · obtain ⟨span', hspan', e', he', drawn, hstatement⟩ := htraced.answered st _ hanswered
      have hmark' : e'.mark? = some mark := (Writer.statement_mark? hstatement).symm.trans hst
      have hname : e'.mark?.isSome := Option.isSome_iff_exists.mpr ⟨mark, hmark'⟩
      have he'' : e' ∈ span'.normalize.names := span'.normalize.mem_names.mpr ⟨he', hname⟩
      obtain rfl : e' = e := hapart span' span hspan' hspan e' he'' e he (hmark'.trans hmark.symm)
      exact ⟨st, hanswered, Writer.statement_table hstatement,
        Writer.statement_nameKey hstatement hname⟩
    · rw [hheld] at hg
      cases hg

theorem eq_of_filterMap_nodup {α β : Type} {value? : α → Option β} {l : List α}
    (h : (l.filterMap value?).Nodup) {a a' : α} (ha : a ∈ l) (ha' : a' ∈ l) {v : β}
    (hv : value? a = some v) (hv' : value? a' = some v) : a = a' := by
  have hpair := List.pairwise_filterMap.mp h
  by_contra hne
  have hsymm : Std.Symm fun a a' : α => ∀ v, value? a = some v → ∀ v', value? a' = some v' → v ≠ v' :=
    ⟨fun _ _ hr v hv v' hv' => (hr v' hv' v hv).symm⟩
  exact hpair.forall ha ha' hne v hv v hv' rfl

section Once

variable {worker : Nat} {marks : Marks} {spans : List Span}

def acceptAndRelease (s : Service) (worker : Nat) (spans : List Span) : List Action :=
  .accept worker spans :: releases (s.accept worker spans).held

theorem run_acceptAndRelease (h : s.workers[worker]? = some marks) (hs : s.Ticketed) :
    (s.run (s.acceptAndRelease worker spans)).held = [] ∧
      s.history (s.acceptAndRelease worker spans) = s.reports (.accept worker spans) ++
        (s.accept worker spans).held.map fun g =>
          .answered g.2 ((s.accept worker spans).store.execute g.2).1 := by
  let t := s.accept worker spans
  have hticketed : t.Ticketed := ticketed_accept h hs
  have hnodup : (t.held.map (·.1)).Nodup := hticketed.sorted.imp Nat.ne_of_lt
  constructor
  · change (t.run (releases t.held)).held = []
    rw [run_releases hticketed hnodup fun g hg => hg]
    apply List.filter_eq_nil_iff.mpr
    intro g hg
    simpa using ⟨g.2, hg⟩
  · rw [← history_releases hticketed hnodup fun g hg => hg]
    rfl

theorem accepted_acceptAndRelease (h : s.workers[worker]? = some marks) (hs : s.Ticketed)
    (span : Span) :
    .accepted span ∈ s.history (s.acceptAndRelease worker spans) ↔ span ∈ spans := by
  rw [(run_acceptAndRelease h hs).2, reports_accept h]
  simp

theorem answered_acceptAndRelease (h : s.workers[worker]? = some marks) (hs : s.Ticketed)
    (hheld : s.held = []) (hfaults : s.store.faults = []) {st : Statement}
    {r : Except StoreFailure Unit}
    (hst : .answered st r ∈ s.history (s.acceptAndRelease worker spans)) :
    r = .ok () ∧ ∃ a ∈ s.started marks spans, a.sent? = some st := by
  rw [(run_acceptAndRelease h hs).2] at hst
  obtain hst | hst := List.mem_append.mp hst
  · obtain ⟨a, ha, hsent⟩ := sent_of_answered h hst
    obtain ⟨-, rfl⟩ := (answered_accept h).mp hst
    exact ⟨execute_started ha hsent hfaults, a, ha, hsent⟩
  · obtain ⟨g, hg, heq⟩ := List.mem_map.mp hst
    cases heq
    rw [accept_held h, hheld, List.nil_append] at hg
    obtain ⟨i, a, ha, -, hsent, -⟩ := mem_heldBack hg
    have hmem := List.mem_of_getElem? ha
    have hnone : (s.accept worker spans).store.faults = [] := by
      rw [accept_store h, Keyspace.tellAll_faults, hfaults]
    exact ⟨execute_started hmem hsent hnone, a, hmem, hsent⟩

end Once

/-- Any spans may be accepted at once without a fault, and no two of the statements that this leads
to have one mark. -/
theorem exists_run_once {setup : Setup} (opened : setup.openService = .ok s)
    (spans : List Span) :
    ∃ actions : List Action, (∀ span, .accepted span ∈ s.history actions ↔ span ∈ spans) ∧
      Faultless (s.history actions) ∧ (s.run actions).held = [] ∧
      ∀ st st' r r' mark, .answered st r ∈ s.history actions →
        .answered st' r' ∈ s.history actions → st.mark? = some mark → st'.mark? = some mark →
        st = st' := by
  -- A new worker accepts all of it at once, so every mark is set for the first time.
  let t := s.run [.setFaults [], .hire]
  let marks := Marks.fresh s.settings.dedupMillis s.clock
  have hticketed : t.Ticketed := ticketed_run opened _
  obtain ⟨hmarks, hheld, hquiet⟩ : t.workers[0]? = some marks ∧ t.held = [] ∧
      s.history [.setFaults [], .hire] = [] := by
    obtain ⟨schema, expiry, random, durations, rfl⟩ := Setup.openService_eq_ok opened
    refine ⟨rfl, rfl, ?_⟩
    simp only [history, reports, List.append_nil]
    rw [replies_of_log rfl, replies_of_log rfl]
    rfl
  have hhistory : s.history ([.setFaults [], .hire] ++ t.acceptAndRelease 0 spans) =
      t.history (t.acceptAndRelease 0 spans) := by
    rw [history_append, hquiet, List.nil_append]
  refine ⟨[.setFaults [], .hire] ++ t.acceptAndRelease 0 spans, ?_, ?_, ?_, ?_⟩
  · intro span
    rw [hhistory]
    exact accepted_acceptAndRelease hmarks hticketed span
  · intro r hr
    cases r with
    | accepted span => rfl
    | answered st r =>
      rw [hhistory] at hr
      rw [(answered_acceptAndRelease hmarks hticketed hheld rfl hr).1]
      rfl
  · rw [run_append]
    exact (run_acceptAndRelease hmarks hticketed).1
  · intro st st' r r' mark hst hst' hm hm'
    rw [hhistory] at hst hst'
    obtain ⟨-, a, ha, hsent⟩ := answered_acceptAndRelease hmarks hticketed hheld rfl hst
    obtain ⟨-, a', ha', hsent'⟩ := answered_acceptAndRelease hmarks hticketed hheld rfl hst'
    have ham : a.mark = some mark := (mark?_of_started ha hsent).symm.trans hm
    have ham' : a'.mark = some mark := (mark?_of_started ha' hsent').symm.trans hm'
    obtain rfl := eq_of_filterMap_nodup (t.started_marks_nodup marks spans) ha ha' ham ham'
    exact Option.some.inj (hsent.symm.trans hsent')

theorem traced_opened {setup : Setup} (h : setup.openService = .ok s) :
    Traced s.writer [] s := by
  obtain ⟨schema, expiry, random, durations, rfl⟩ := Setup.openService_eq_ok h
  exact ⟨rfl, fun st r hr => absurd hr List.not_mem_nil, fun h hh => absurd hh List.not_mem_nil⟩

theorem covered_opened {setup : Setup} (h : setup.openService = .ok s) : Covered [] s := by
  have hticketed := ticketed_opened h
  obtain ⟨schema, expiry, random, durations, rfl⟩ := Setup.openService_eq_ok h
  exact ⟨fun w m key hm => by simp [Setup.service] at hm,
    fun span hspan => absurd hspan List.not_mem_nil, hticketed⟩

theorem keys_opened {setup : Setup} (h : setup.openService = .ok s) :
    s.store.keys = setup.store.keys := by
  rw [store_opened h]

theorem mem_keys_run {setup : Setup} (opened : setup.openService = .ok s)
    (actions : List Action) (t : Table) (key : List Cell) :
    key ∈ (s.run actions).store.keys t ↔
      key ∈ setup.store.keys t ∨ Left (s.history actions) t key := by
  have hstart : ∀ t key, key ∈ s.store.keys t ↔ key ∈ setup.store.keys t ∨ Left [] t key :=
    fun t key => by simp [keys_opened opened, Left]
  exact (keys_preserved setup.store.keys).run hstart actions t key

theorem traced_run {setup : Setup} (opened : setup.openService = .ok s) (actions : List Action) :
    Traced s.writer (s.history actions) (s.run actions) :=
  (traced_preserved s.writer).run (traced_opened opened) actions

theorem covered_run {setup : Setup} (opened : setup.openService = .ok s) {actions : List Action}
    (h : Faultless (s.history actions)) : Covered (s.history actions) (s.run actions) :=
  covered_preserved.run (fun _ => covered_opened opened) actions h

theorem toList_spanNameKey (service name : String) :
    (Marks.spanNameKey service name).toList = service.toList ++ '‖' :: name.toList := by
  simp [Marks.spanNameKey, Marks.separator]

theorem cut_unique {c : Char} {l m r t : List Char} (hl : c ∉ l) (hm : c ∉ m)
    (h : l ++ c :: r = m ++ c :: t) : l = m ∧ r = t := by
  induction l generalizing m with
  | nil =>
    cases m with
    | nil => exact ⟨rfl, (List.cons.inj h).2⟩
    | cons d m => exact absurd ((List.cons.inj h).1 ▸ List.mem_cons_self) hm
  | cons d l ih =>
    cases m with
    | nil => exact absurd ((List.cons.inj h).1 ▸ List.mem_cons_self) hl
    | cons d' m =>
      obtain ⟨rfl, hrest⟩ := List.cons.inj h
      obtain ⟨rfl, rfl⟩ := ih (List.not_mem_of_not_mem_cons hl)
        (List.not_mem_of_not_mem_cons hm) hrest
      exact ⟨rfl, rfl⟩

theorem marksApart_of_no_separator {known : Span → Prop}
    (h : ∀ span, known span → ∀ service ∈ span.normalize.services, '‖' ∉ service.toList) :
    MarksApart known := by
  intro p q hp hq e he e' he' hmark
  obtain ⟨a, ha, rfl | ⟨-, rfl⟩⟩ := (Span.mem_names_iff _).mp he <;>
    obtain ⟨b, hb, rfl | ⟨-, rfl⟩⟩ := (Span.mem_names_iff _).mp he'
  · obtain rfl : a = b := Option.some.inj hmark
    rfl
  · have htext : a = Marks.spanNameKey b q.normalize.name := Option.some.inj hmark
    refine absurd ?_ (h p hp a ha)
    rw [htext, toList_spanNameKey]
    simp
  · have htext : Marks.spanNameKey a p.normalize.name = b := Option.some.inj hmark
    refine absurd ?_ (h q hq b hb)
    rw [← htext, toList_spanNameKey]
    simp
  · have htext : Marks.spanNameKey a p.normalize.name = Marks.spanNameKey b q.normalize.name :=
      Option.some.inj hmark
    have hchars := congrArg String.toList htext
    rw [toList_spanNameKey, toList_spanNameKey] at hchars
    obtain ⟨hservice, hname⟩ :=
      cut_unique (h p hp a ha) (h q hq b hb) hchars
    rw [String.toList_inj.mp hservice, String.toList_inj.mp hname]

theorem told_of_namesExact {setup : Setup} (opened : setup.openService = .ok s)
    (empty : setup.store.keys .serviceNames = [] ∧ setup.store.keys .spanNames = [])
    {actions : List Action} (hexact : NamesExact (s.history actions) (s.run actions).store)
    {span : Span} (hspan : .accepted span ∈ s.history actions) {e : Entry}
    (he : e ∈ span.normalize.names) :
    ∃ st, .answered st (.ok ()) ∈ s.history actions ∧ st.name? = some e := by
  have hname := (span.normalize.mem_names.mp he).2
  have htable := e.mark?_isSome_iff.mp hname
  have hnone : setup.store.keys e.table = [] := by
    obtain ht | ht := htable
    · rw [ht, empty.1]
    · rw [ht, empty.2]
  have hkey :=
    (namesExact_iff.mp hexact e.table htable e.nameKey).mpr ⟨span, hspan, e, he, rfl, rfl⟩
  rw [mem_keys_run opened, hnone, or_iff_right List.not_mem_nil] at hkey
  obtain ⟨st, hst, other, -, n, hn, htold, htable', hkey'⟩ :=
    (traced_run opened actions).name_of_left htable hkey
  obtain rfl := Entry.eq_of_nameKey (other.normalize.mem_names.mp hn).2 hname htable' hkey'
  exact ⟨st, hst, htold⟩

/-- The tables of names, empty at first, are exact after every run that accepts some of these spans
and in which no statement fails, exactly if no two different names of the spans have one mark. -/
theorem names_exact_iff (setup : Setup) (s : Service) (known : Span → Prop)
    (opened : setup.openService = .ok s)
    (empty : setup.store.keys .serviceNames = [] ∧ setup.store.keys .spanNames = []) :
    (∀ actions : List Action, (∀ span, .accepted span ∈ s.history actions → known span) →
      Faultless (s.history actions) → (s.run actions).held = [] →
      NamesExact (s.history actions) (s.run actions).store) ↔ MarksApart known := by
  constructor
  · intro h p q hp hq e he e' he' hmark
    obtain ⟨actions, haccepted, hfaultless, hheld, honce⟩ := exists_run_once opened [p, q]
    have hknown : ∀ span, .accepted span ∈ s.history actions → known span := by
      intro span hspan
      obtain rfl | hspan := List.mem_cons.mp ((haccepted span).mp hspan)
      · exact hp
      · exact List.mem_singleton.mp hspan ▸ hq
    have hexact := h actions hknown hfaultless hheld
    have hp' := (haccepted p).mpr List.mem_cons_self
    have hq' := (haccepted q).mpr (List.mem_cons_of_mem _ List.mem_cons_self)
    obtain ⟨st, hst, htold⟩ := told_of_namesExact opened empty hexact hp' he
    obtain ⟨st', hst', htold'⟩ := told_of_namesExact opened empty hexact hq' he'
    obtain ⟨mark, hm⟩ := Option.isSome_iff_exists.mp (p.normalize.mem_names.mp he).2
    have hst_mark : st.mark? = some mark := by rw [Statement.mark?, htold, Option.bind_some, hm]
    have hst'_mark : st'.mark? = some mark := by
      rw [Statement.mark?, htold', Option.bind_some, ← hmark, hm]
    obtain rfl := honce st st' _ _ mark hst hst' hst_mark hst'_mark
    exact Option.some.inj (htold.symm.trans htold')
  · intro hapart actions hknown hfaultless hheld
    exact namesExact_of_marksApart (traced_run opened actions) (mem_keys_run opened actions)
      (covered_run opened hfaultless) hheld empty
      fun p q hp hq => hapart p q (hknown p hp) (hknown q hq)

theorem names_exact_iff_web :
    Setup.zipkin.openService = .ok zipkin ∧
    (Setup.zipkin.store.keys .serviceNames = [] ∧
      Setup.zipkin.store.keys .spanNames = []) ∧
    NamesExact (zipkin.history [.hire, .accept 0 [.of "web" "get"]])
      (zipkin.run [.hire, .accept 0 [.of "web" "get"]]).store := by
  have empty : Setup.zipkin.store.keys .serviceNames = [] ∧
      Setup.zipkin.store.keys .spanNames = [] := ⟨rfl, rfl⟩
  have apart : MarksApart (· = .of "web" "get") := by
    apply marksApart_of_no_separator
    intro span hspan
    subst hspan
    decide +kernel
  have accepted : ∀ r ∈ zipkin.history [.hire, .accept 0 [.of "web" "get"]],
      r = .accepted (.of "web" "get") ∨ r.isAnswer := by decide +kernel
  refine ⟨zipkin_opened, empty, ?_⟩
  refine (names_exact_iff _ zipkin _ zipkin_opened empty).mpr apart _ (fun span hspan => ?_)
    (by decide +kernel) (by decide +kernel)
  obtain h | h := accepted _ hspan
  · exact Report.accepted.inj h
  · cases h

/-- The name of a service reads like the mark of a span name, and is never stored. -/
theorem service_taken_for_span_name :
    Setup.zipkin.openService = .ok zipkin ∧
    let actions : List Action :=
      [.hire, .accept 0 [.of "web" "get"], .accept 0 [.of "web‖get" ""]]
    Faultless (zipkin.history actions) ∧ (zipkin.run actions).held = [] ∧
    ¬ NamesExact (zipkin.history actions) (zipkin.run actions).store := by
  refine ⟨zipkin_opened, by decide +kernel, by decide +kernel, fun h => ?_⟩
  have hkey := (h.services [.text "web‖get"]).mpr
    ⟨.of "web‖get" "", by decide +kernel, "web‖get", by decide +kernel, rfl⟩
  exact absurd hkey (by decide +kernel)

end Service

end TraceIndex
