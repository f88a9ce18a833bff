import TraceIndex.Proofs.AnnotationKeys
import TraceIndex.Proofs.EventOrder
import TraceIndex.Proofs.Origins
import TraceIndex.Proofs.Sequence
import TraceIndex.Proofs.Tables

namespace TraceIndex

namespace Span

def Reordered (s t : Span) : Prop := s.events.Perm t.events ∧ t = { s with events := t.events }

instance (s t : Span) : Decidable (s.Reordered t) := inferInstanceAs (Decidable (_ ∧ _))

section Sorted

variable {es fs : List Event}

theorem toInt_map_injective : Function.Injective (Option.map Int64.toInt) :=
  Option.map_injective fun _ _ => Int64.toInt_inj.mp

theorem first_perm (h : es.Perm fs) :
    (byTime es).head?.map (·.time) = (byTime fs).head?.map (·.time) := by
  apply toInt_map_injective
  simp only [Option.map_map]
  exact (inOrder_byTime es).first.trans
    ((min?_perm (h.map _)).trans (inOrder_byTime fs).first.symm)

theorem last_perm (h : es.Perm fs) :
    (byTime es).getLast?.map (·.time) = (byTime fs).getLast?.map (·.time) := by
  apply toInt_map_injective
  simp only [Option.map_map]
  exact (inOrder_byTime es).last.trans
    ((max?_perm (h.map _)).trans (inOrder_byTime fs).last.symm)

theorem timeOf?_perm (h : es.Perm fs) (value : String) :
    timeOf? value (byTime es) = timeOf? value (byTime fs) := by
  apply toInt_map_injective
  simp only [timeOf?, Option.map_map]
  exact ((inOrder_byTime es).earliest _).trans
    ((min?_perm ((h.filter _).map _)).trans ((inOrder_byTime fs).earliest _).symm)

theorem clientDuration?_perm (h : es.Perm fs) :
    clientDuration? (byTime es) = clientDuration? (byTime fs) := by
  simp only [clientDuration?, timeOf?_perm h]

theorem derivedDuration?_congr {l m : List Event} (hlength : l.length = m.length)
    (hfirst : l.head?.map (·.time) = m.head?.map (·.time))
    (hlast : l.getLast?.map (·.time) = m.getLast?.map (·.time))
    (hclient : clientDuration? l = clientDuration? m) :
    derivedDuration? l = derivedDuration? m := by
  match l, m with
  | [], [] | [_], [_] => rfl
  | a :: b :: l, c :: d :: m =>
    have hfirst : a.time = c.time := by simpa using hfirst
    have hlast : ((b :: l).getLast (by simp)).time = ((d :: m).getLast (by simp)).time := by
      simpa [List.getLast?_eq_getLast_of_ne_nil] using hlast
    simp only [derivedDuration?, hfirst, hlast, hclient]
  | [], _ :: _ | _ :: _, [] | [_], _ :: _ :: _ | _ :: _ :: _, [_] => simp at hlength

theorem derivedDuration?_perm (h : es.Perm fs) :
    derivedDuration? (byTime es) = derivedDuration? (byTime fs) := by
  apply derivedDuration?_congr
  · rw [(byTime_perm es).length_eq, (byTime_perm fs).length_eq, h.length_eq]
  · exact first_perm h
  · exact last_perm h
  · exact clientDuration?_perm h

/-- Events that all have times of their own have one order. -/
theorem byTime_congr (h : es.Perm fs) (distinct : (es.map (·.time)).Nodup) :
    byTime es = byTime fs := by
  have hperm : (byTime es).Perm (byTime fs) :=
    (byTime_perm es).trans (h.trans (byTime_perm fs).symm)
  apply hperm.eq_of_pairwise _ (byTime_ascending es) (byTime_ascending fs)
  intro a b ha hb hab hba
  have ha : a ∈ es := (byTime_perm es).mem_iff.mp ha
  have hb : b ∈ es := h.mem_iff.mpr ((byTime_perm fs).mem_iff.mp hb)
  exact List.inj_on_of_nodup_map distinct ha hb (Int64.le_antisymm hab hba)

end Sorted

theorem sorted_texts (l : List String) :
    (l.mergeSort fun a b => a ≤ b).Pairwise fun a b => a ≤ b := by
  have htrans : ∀ a b c : String, decide (a ≤ b) → decide (b ≤ c) → decide (a ≤ c) := by
    intro a b c hab hbc
    rw [decide_eq_true_eq] at hab hbc ⊢
    exact String.le_trans hab hbc
  have htotal : ∀ a b : String, decide (a ≤ b) || decide (b ≤ a) := by
    intro a b
    simpa using String.le_total a b
  simpa only [decide_eq_true_eq] using List.pairwise_mergeSort htrans htotal l

theorem mergeSort_perm_eq {l m : List String} (h : l.Perm m) :
    (l.mergeSort fun a b => a ≤ b) = m.mergeSort fun a b => a ≤ b := by
  have hperm := (List.mergeSort_perm l fun a b => decide (a ≤ b)).trans
    (h.trans (List.mergeSort_perm m fun a b => decide (a ≤ b)).symm)
  apply hperm.eq_of_pairwise _ (sorted_texts l) (sorted_texts m)
  intro a b _ _
  exact String.le_antisymm

namespace Reordered

variable {s t : Span}

theorem tags (h : s.Reordered t) : t.tags = s.tags := by rw [h.2]

theorem timestamp (h : s.Reordered t) : t.normalize.timestamp = s.normalize.timestamp := by
  rw [h.2]
  exact congrArg (s.timestamp <|> ·) (first_perm h.1.symm)

theorem duration (h : s.Reordered t) : t.normalize.duration = s.normalize.duration := by
  rw [h.2]
  exact congrArg (s.duration <|> ·) (derivedDuration?_perm h.1.symm)

theorem normalize_perm (h : s.Reordered t) : t.normalize.events.Perm s.normalize.events :=
  (byTime_perm t.events).trans (h.1.symm.trans (byTime_perm s.events).symm)

theorem services (h : s.Reordered t) : t.normalize.services = s.normalize.services := by
  have hendpoints : t.normalize.endpoints.Perm s.normalize.endpoints := by
    change (t.normalize.events.filterMap _ ++ t.tags.filterMap _).Perm _
    rw [h.tags]
    exact (h.normalize_perm.filterMap _).append_right _
  rw [Span.services, Span.services, mergeSort_perm_eq (hendpoints.filterMap _)]

theorem mem_annotationKeys (h : s.Reordered t) (key : String) :
    key ∈ t.normalize.annotationKeys ↔ key ∈ s.normalize.annotationKeys := by
  have htags : t.normalize.tags = s.normalize.tags := h.tags
  rw [annotationKeys, annotationKeys, mem_firstAppearances, mem_firstAppearances, htags,
    List.mem_append, List.mem_append, (h.normalize_perm.filterMap _).mem_iff]

theorem normalize_eq (h : s.Reordered t) (distinct : (s.events.map (·.time)).Nodup) :
    t.normalize = s.normalize := by
  rw [h.2]
  simp only [normalize, byTime_congr h.1 distinct]

end Reordered

theorem StoredBy.unique {s : Span} {w : Writer} {st st' : Statement} (h : s.StoredBy w st)
    (h' : s.StoredBy w st') : st = st' := by
  obtain ⟨e, he, ht, drawn, hst⟩ := h
  obtain ⟨e', he', ht', drawn', hst'⟩ := h'
  obtain rfl := trace_of_mem_entries he ht
  obtain rfl := trace_of_mem_entries he' ht'
  apply Except.ok.inj
  rw [← hst, ← hst', (w.statement_of_not_spread rfl drawn drawn').1]

theorem storedBy_of_recorded {w : Writer} {past : List Report} {st : Statement}
    (h : Recorded w past st) (ht : st.table = .traces) :
    ∃ span, .accepted span ∈ past ∧ span.StoredBy w st := by
  obtain ⟨span, hspan, e, he, drawn, hst⟩ := h
  refine ⟨span, hspan, e, he, ?_, drawn, hst⟩
  obtain ⟨_, _, -, rfl⟩ := Writer.cells_of_statement hst
  exact ht

/-- Each key that a run adds to the table of spans is that of a span that was accepted. -/
theorem key_of_run {setup : Setup} {service : Service} (opened : setup.openService = .ok service)
    {actions : List Action} {key : List Cell} (h : key ∈ (service.run actions).store.keys .traces) :
    key ∈ setup.store.keys .traces ∨
      ∃ span, .accepted span ∈ service.history actions ∧
        ∀ bytes, key = (span.normalize.fact bytes).key := by
  apply ((Service.mem_keys_run opened actions .traces key).mp h).imp_right
  rintro ⟨st, hst, ht, hkey⟩
  have hrecorded := (Service.traced_run opened actions).answered st _ hst
  obtain ⟨span, hspan, hstored⟩ := storedBy_of_recorded hrecorded ht
  refine ⟨span, hspan, fun bytes => ?_⟩
  exact Option.some.inj (hkey.symm.trans (hstored.primaryKey? bytes))

/-- Whatever order a report lists the events of a span in, it tells the same. If no two of the
events have one time, it is accepted as any other report of the span is and stored by the same
statement. Told once more, this adds no row, and a run adds at most one row for all reports. -/
theorem normalize_reordered (s t : Span) (reordered : s.Reordered t) :
    (t.normalize.timestamp = s.normalize.timestamp ∧
      t.normalize.duration = s.normalize.duration ∧
      t.normalize.services = s.normalize.services ∧
      ∀ key, key ∈ t.normalize.annotationKeys ↔ key ∈ s.normalize.annotationKeys) ∧
    ((s.events.map (·.time)).Nodup →
      (t.normalize = s.normalize ∧
        t.normalize.uniquenessKey = s.normalize.uniquenessKey ∧
        (∀ codec : Codec, codec.encode t.normalize = codec.encode s.normalize) ∧
        ∀ (service : Service) (worker : Nat) (before after : List Span),
          service.accept worker (before ++ t :: after) =
            service.accept worker (before ++ s :: after)) ∧
      (∀ (w : Writer) (st st' : Statement), s.StoredBy w st → t.StoredBy w st' →
        (st = st' ∧ ∀ bytes, st.primaryKey? = some (s.normalize.fact bytes).key) ∧
        ∀ (k : Keyspace) (others : List Statement),
          (((k.tell st).tellAll others).tell st').keys .traces =
            ((k.tell st).tellAll others).keys .traces) ∧
      ∀ (setup : Setup) (service : Service) (actions : List Action),
        setup.openService = .ok service →
        (∀ span, .accepted span ∈ service.history actions → s.Reordered span) →
        ∀ key ∈ (service.run actions).store.keys .traces,
          key ∈ setup.store.keys .traces ∨ ∀ bytes, key = (s.normalize.fact bytes).key) := by
  refine ⟨⟨reordered.timestamp, reordered.duration, reordered.services,
    reordered.mem_annotationKeys⟩, fun distinct => ⟨?_, ?_, ?_⟩⟩
  · have hsame := reordered.normalize_eq distinct
    refine ⟨hsame, by rw [hsame], fun codec => by rw [hsame], ?_⟩
    intro service worker before after
    simp only [Service.accept, List.map_append, List.map_cons, hsame]
  · intro w st st' hst hst'
    have hst' : s.StoredBy w st' := by rwa [StoredBy, ← reordered.normalize_eq distinct]
    obtain rfl := hst.unique hst'
    exact ⟨⟨rfl, hst.primaryKey?⟩, fun k others => Keyspace.keys_tell_again⟩
  · intro setup service actions opened hreports key hkey
    apply (key_of_run opened hkey).imp_right
    rintro ⟨span, hspan, hfact⟩ bytes
    rw [hfact bytes, (hreports span hspan).normalize_eq distinct]

theorem normalize_reordered_client :
    let sent : Event := ⟨9, clientSend, some (.named "web")⟩
    let retried : Event := ⟨12, "retry", some (.named "web")⟩
    let received : Event := ⟨20, clientReceive, some (.named "web")⟩
    let s : Span := ⟨1, 2, none, "get", none, none, [sent, retried, received], []⟩
    let t : Span := { s with events := [received, sent, retried] }
    let r : Span := { s with timestamp := some 9, duration := some 11 }
    (s.Reordered t ∧ (s.events.map (·.time)).Nodup) ∧
    (t.normalize = r ∧ t.normalize.timestamp = s.normalize.timestamp ∧
      ∀ key, key ∈ t.normalize.annotationKeys ↔ key ∈ s.normalize.annotationKeys) ∧
    ∃ st, s.StoredBy Service.zipkin.writer st ∧ t.StoredBy Service.zipkin.writer st ∧
      ((Service.zipkin.store.tell st).keys .traces).length = 1 ∧
      ((Service.zipkin.store.tell st).tell st).keys .traces =
        (Service.zipkin.store.tell st).keys .traces := by
  intro sent retried received s t r
  have reordered : s.Reordered t := by decide
  have distinct : (s.events.map (·.time)).Nodup := by decide
  have sorted : byTime s.events = s.events := List.mergeSort_of_pairwise (by decide)
  have normal : s.normalize = r := by
    rw [normalize, sorted]
    decide +kernel
  obtain ⟨⟨htime, -, -, hkeys⟩, hrest⟩ := normalize_reordered s t reordered
  obtain ⟨⟨hsame, -⟩, hstored, -⟩ := hrest distinct
  let drawn : RandomBuckets := ⟨10, by decide, .seeded 0⟩
  obtain ⟨st, hst, hone⟩ :
      ∃ st, (Service.zipkin.writer.statement (.trace r r.storedTime r.uniquenessKey) drawn).1 =
        .ok st ∧ ((Service.zipkin.store.tell st).keys .traces).length = 1 :=
    ⟨_, rfl, by decide +kernel⟩
  have own : ∀ s : Span, s.normalize = r → s.StoredBy Service.zipkin.writer st := by
    intro s hs
    exact ⟨_, by simp [entries, hs], rfl, drawn, hst⟩
  have hs := own s normal
  have ht := own t (hsame.trans normal)
  refine ⟨⟨reordered, distinct⟩, ⟨hsame.trans normal, htime, hkeys⟩, st, hs, ht, hone, ?_⟩
  exact (hstored Service.zipkin.writer st st hs ht).2 Service.zipkin.store []

end Span

end TraceIndex
