import TraceIndex.Proofs.Completions
import TraceIndex.Proofs.Sequence
import TraceIndex.Proofs.Tables

namespace TraceIndex

/-- With more keys taken, what is due is what was due before and has no such key. -/
theorem due_filter {α : Type} {key? : α → Option String} {taken more : List String}
    (h : ∀ key ∈ taken, key ∈ more) (l : List α) :
    due key? more l = (due key? taken l).filter fun a => (key? a).all (· ∉ more) := by
  induction l generalizing taken more with
  | nil => rfl
  | cons a l ih =>
    cases ha : key? a with
    | none => simp [due_cons_none ha, ha, ih h]
    | some key =>
      by_cases hk : key ∈ taken
      · rw [due_cons_taken ha (h key hk), due_cons_taken ha hk]
        exact ih h
      · rw [due_cons_free ha hk]
        by_cases hmore : key ∈ more
        · rw [due_cons_taken ha hmore, List.filter_cons_of_neg (by simp [ha, hmore])]
          exact ih fun k hmem => (List.mem_cons.mp hmem).elim (fun heq => heq ▸ hmore) (h k)
        · have hrest : due key? (key :: more) l =
              (due key? (key :: taken) l).filter fun a => (key? a).all (· ∉ key :: more) :=
            ih fun k hmem => List.mem_cons.mpr ((List.mem_cons.mp hmem).imp_right (h k))
          rw [due_cons_free ha hmore, List.filter_cons_of_pos (by simp [ha, hmore]), hrest]
          congr 1
          apply List.filter_congr
          intro b hb
          cases hkb : key? b with
          | none => rfl
          | some other =>
            have hfree := (key_of_due (key :: taken) l).2 other
              (List.mem_filterMap.mpr ⟨b, hb, hkb⟩)
            have hne : other ≠ key := fun heq => hfree (heq ▸ List.mem_cons_self)
            simp [hne]

/-- The entries of a table without names are due whatever is taken. -/
theorem due_table {t : Table} (h : t.isNames = false) (taken : List String) (l : List Entry) :
    (due Entry.mark? taken l).filter (·.table = t) = l.filter (·.table = t) := by
  have hplain : ∀ l : List Entry, l.filter (·.table = t) =
      (l.filter (·.mark?.isNone)).filter (·.table = t) := by
    intro l
    rw [List.filter_filter]
    apply List.filter_congr
    intro e _
    by_cases ht : e.table = t
    · have hmark := e.isNames_table
      rw [ht, h] at hmark
      simp [ht, ← Option.not_isSome, ← hmark]
    · simp [ht]
  rw [hplain, due_filter_none, ← hplain]

namespace RandomBuckets

variable {b : RandomBuckets}

theorem firstAccepted_one (tries : Nat) (words : Words) :
    (Words.firstAccepted 1 tries words).1 = 0 := by
  induction tries generalizing words with
  | zero => rfl
  | succ tries ih =>
    simp only [Words.firstAccepted]
    split
    · have hlt := words.next.1.toNat_lt
      have hzero : words.next.1.toNat * (1 : UInt32).toNat / UInt32.size = 0 := by
        apply Nat.div_eq_of_lt
        simpa using hlt
      rw [Words.scaled, hzero]
      rfl
    · exact ih _

theorem draw_single (h : b.count = 1) : b.draw.1 = 0 := by
  have hbelow : (b.words.below b.count).1 = 0 := by
    rw [h]
    exact firstAccepted_one _ _
  simp only [draw, hbelow]
  rfl

end RandomBuckets

namespace Writer

def plain? (w : Writer) (e : Entry) : Option Statement :=
  (w.cells e).toOption.map fun cells => w.bound e.table (cells 0)

variable (w : Writer) {e : Entry} {b : RandomBuckets}

theorem statement_plain (h : isSpread e = false ∨ b.count = 1) :
    (w.statement e b).1.toOption = w.plain? e := by
  cases hc : w.cells e with
  | error failure => simp [statement_of_error hc, plain?, hc, Except.toOption]
  | ok cells =>
    cases hspread : isSpread e with
    | false => simp [statement_fixed hc hspread, plain?, hc, Except.toOption]
    | true =>
      have hcount : b.count = 1 := h.resolve_left (by simp [hspread])
      simp [statement_drawn hc hspread, plain?, hc, Except.toOption,
        RandomBuckets.draw_single hcount]

theorem statement_count (e : Entry) (b : RandomBuckets) : (w.statement e b).2.count = b.count := by
  cases hc : w.cells e with
  | error failure => rw [statement_of_error hc]
  | ok cells =>
    cases hspread : isSpread e with
    | false => rw [statement_fixed hc hspread]
    | true =>
      rw [statement_drawn hc hspread]
      rfl

theorem filter_statement {t : Table} (h : e.table ≠ t) (b : RandomBuckets) :
    (w.statement e b).1.toOption.toList.filter (·.table = t) = [] := by
  cases hst : (w.statement e b).1 with
  | error failure => rfl
  | ok st =>
    have htable : ¬ st.table = t := by rwa [statement_table hst]
    simp [Except.toOption, htable]

variable {w} in
theorem plain?_table {st : Statement} (h : w.plain? e = some st) : st.table = e.table := by
  obtain ⟨cells, -, rfl⟩ := Option.map_eq_some_iff.mp h
  rfl

end Writer

namespace Desk

variable (w : Writer)

theorem drafts_count (l : List Entry) (b : RandomBuckets) : (drafts w l b).2.count = b.count := by
  induction l generalizing b with
  | nil => rfl
  | cons e l ih => rw [drafts_cons, ih, w.statement_count]

theorem sent_cons (e : Entry) (l : List Entry) (b : RandomBuckets) :
    (drafts w (e :: l) b).1.filterMap Attempt.sent? =
      (w.statement e b).1.toOption.toList ++
        (drafts w l (w.statement e b).2).1.filterMap Attempt.sent? := by
  have hsent : (⟨(w.statement e b).1, e.mark?⟩ : Attempt).sent? =
      (w.statement e b).1.toOption := rfl
  rw [drafts_cons, List.filterMap_cons, hsent]
  cases (w.statement e b).1.toOption <;> rfl

theorem drafts_table {t : Table} (l : List Entry) {b : RandomBuckets}
    (h : t.isSpread = false ∨ b.count = 1) :
    ((drafts w l b).1.filterMap Attempt.sent?).filter (·.table = t) =
      (l.filter (·.table = t)).filterMap w.plain? := by
  induction l generalizing b with
  | nil => rfl
  | cons e l ih =>
    rw [sent_cons, List.filter_append, ih (h.imp_right (w.statement_count e b).trans)]
    by_cases ht : e.table = t
    · have hfixed : Writer.isSpread e = false ∨ b.count = 1 := by
        rwa [← Entry.isSpread_table, ht]
      rw [w.statement_plain hfixed, List.filter_cons_of_pos (by simpa using ht),
        List.filterMap_cons]
      cases hst : w.plain? e with
      | none => rfl
      | some st =>
        have htable : st.table = t := (Writer.plain?_table hst).trans ht
        simp [htable]
    · rw [w.filter_statement ht, List.filter_cons_of_neg (by simpa using ht)]
      rfl

end Desk

namespace Service

variable {s t : Service} {worker : Nat} {marks : Marks} {spans : List Span} {b : Batch}
  {returned : List String}

def Idle (s : Service) (worker : Nat) : Prop :=
  ∀ b ∈ s.batches, b.worker = worker → b.outstanding = []

/-- Where looks lead after spans were accepted: what has become of the batch, with the keys that it
has given back. If the worker had no other write in flight, its marks have changed by these
alone. -/
structure Looked (s : Service) (worker : Nat) (marks : Marks) (spans : List Span) (b : Batch)
    (returned : List String) (t : Service) : Prop where
  batch : t.batches[s.batches.length]? = some b
  owner : b.worker = worker
  outstanding : ∀ f ∈ b.outstanding, f ∈ s.flights s.issued (s.started marks spans)
  seen : ∀ f ∈ s.flights s.issued (s.started marks spans), f ∈ b.outstanding ∨
    f.outcome? = some (.ok ()) ∨
    b.Spoilt ∧ ∀ key, f.attempt.mark = some key → key ∈ returned
  given : ∀ key ∈ returned, b.Spoilt ∧
    ∃ f ∈ s.flights s.issued (s.started marks spans), f.attempt.mark = some key
  alone : s.Idle worker →
    t.workers[worker]? = some (returned.foldl Marks.revert (s.walk marks spans).2.marks) ∧
    ∀ j b, j ≠ s.batches.length → t.batches[j]? = some b → b.worker = worker → b.outstanding = []

theorem marks_accept (h : s.workers[worker]? = some marks) (spans : List Span) :
    (s.accept worker spans).workers[worker]? = some (s.walk marks spans).2.marks := by
  rw [accept_eq h]
  exact getElem?_set_of_some h _

theorem looked_accept (h : s.workers[worker]? = some marks) :
    s.Looked worker marks spans
      (.ofFlights worker (s.flights s.issued (s.started marks spans))) []
      (s.accept worker spans) where
  batch := batch_accept h spans
  owner := rfl
  outstanding f hf := by simpa [Batch.outstanding, Batch.ofFlights] using hf
  seen f hf := .inl (List.mem_append_left _ hf)
  given _ hkey := absurd hkey List.not_mem_nil
  alone hidle := by
    refine ⟨marks_accept h spans, fun j b hj hb hw => ?_⟩
    rw [accept_batches h, List.getElem?_append] at hb
    split at hb
    · exact hidle b (List.mem_of_getElem? hb) hw
    · rename_i hlt
      rw [List.getElem?_singleton, if_neg (by omega)] at hb
      cases hb

theorem looked_tends {u : Service} (h : Tends t u) (hs : s.Looked worker marks spans b returned t) :
    ∃ b' returned', s.Looked worker marks spans b' returned' u := by
  obtain ⟨j, b₀, b₁, keys, notices, metrics, hb₀, htended, rfl⟩ := h
  -- Keys come back from the batch itself, or from another one. That has none to give back if the
  -- worker was idle.
  by_cases hj : j = s.batches.length
  · subst hj
    obtain rfl : b = b₀ := Option.some.inj (hs.batch.symm.trans hb₀)
    refine ⟨b₁, returned ++ keys, getElem?_set_of_some hb₀ b₁, htended.worker.trans hs.owner,
      fun f hf => hs.outstanding f (htended.outstanding f hf), ?_, ?_, ?_⟩
    · intro f hf
      obtain hleft | hok | ⟨hspoilt, hkeys⟩ := hs.seen f hf
      · obtain hleft | hok | ⟨hspoilt, hkeys⟩ := htended.seen f hleft
        · exact .inl hleft
        · exact .inr (.inl hok)
        · exact .inr (.inr ⟨hspoilt, fun key hkey => List.mem_append_right _ (hkeys key hkey)⟩)
      · exact .inr (.inl hok)
      · exact .inr (.inr ⟨htended.spoilt hspoilt,
          fun key hkey => List.mem_append_left _ (hkeys key hkey)⟩)
    · intro key hkey
      obtain hkey | hkey := List.mem_append.mp hkey
      · obtain ⟨hspoilt, hf⟩ := hs.given key hkey
        exact ⟨htended.spoilt hspoilt, hf⟩
      · obtain ⟨hspoilt, f, hf, hmark⟩ := htended.returned key hkey
        exact ⟨hspoilt, f, hs.outstanding f hf, hmark⟩
    · intro hidle
      obtain ⟨hworkers, hothers⟩ := hs.alone hidle
      constructor
      · simp only [revert, hs.owner, List.getElem?_modify_eq, hworkers, List.foldl_append]
        rfl
      · intro i b hi hb
        rw [List.getElem?_set_ne (Ne.symm hi)] at hb
        exact hothers i b hi hb
  · refine ⟨b, returned, ?_, hs.owner, hs.outstanding, hs.seen, hs.given, ?_⟩
    · exact (List.getElem?_set_ne hj).trans hs.batch
    · intro hidle
      obtain ⟨hworkers, hothers⟩ := hs.alone hidle
      constructor
      · by_cases hw : b₀.worker = worker
        · have hnone := hothers j b₀ hj hb₀ hw
          have hkeys : keys = [] := List.eq_nil_iff_forall_not_mem.mpr fun key hkey => by
            obtain ⟨-, f, hf, -⟩ := htended.returned key hkey
            rw [hnone] at hf
            cases hf
          rw [hkeys, revert_nil]
          exact hworkers
        · simp only [revert, List.getElem?_modify_ne _ _ hw]
          exact hworkers
      · intro i b hi hb hw
        by_cases hij : j = i
        · subst hij
          rw [getElem?_set_of_some hb₀ b₁] at hb
          obtain rfl := Option.some.inj hb
          have hnone := hothers j b₀ hj hb₀ (htended.worker.symm.trans hw)
          apply List.eq_nil_iff_forall_not_mem.mpr
          intro f hf
          have hf := htended.outstanding f hf
          rw [hnone] at hf
          cases hf
        · rw [List.getElem?_set_ne hij] at hb
          exact hothers i b hi hb hw

theorem looked_tending (h : s.workers[worker]? = some marks)
    (ht : Tending (s.accept worker spans) t) :
    ∃ b returned, s.Looked worker marks spans b returned t := by
  induction ht with
  | refl => exact ⟨_, _, looked_accept h⟩
  | tail _ hstep ih =>
    obtain ⟨b, returned, hlooked⟩ := ih
    exact looked_tends hstep hlooked

theorem Looked.free (hs : s.Looked worker marks spans b returned t) :
    ∀ key ∈ returned, ¬ marks.InForce s.clock key := by
  intro key h
  obtain ⟨-, f, hf, hmark⟩ := hs.given key h
  have hattempts := s.flights_attempts s.issued (s.started marks spans)
  exact not_inForce_of_started (hattempts ▸ List.mem_map_of_mem hf) hmark

/-- Of the names that a pass sent, a second pass sends those whose keys were given back. -/
theorem due_again (hfree : ∀ key ∈ returned, ¬ marks.InForce s.clock key) :
    due Entry.mark? ((returned.foldl Marks.revert (s.walk marks spans).2.marks).refresh
        s.clock).marked (entriesOf spans) =
      (due Entry.mark? (marks.refresh s.clock).marked (entriesOf spans)).filter
        fun e => e.mark?.all (· ∈ returned) := by
  have htaken : ∀ key,
      key ∈ ((returned.foldl Marks.revert (s.walk marks spans).2.marks).refresh s.clock).marked ↔
        (marks.InForce s.clock key ∨ ∃ e ∈ entriesOf spans, e.mark? = some key) ∧
          key ∉ returned := by
    intro key
    have hwalk := Desk.inForce_attempts s.writer s.clock (entriesOf spans) ⟨marks, s.buckets⟩ key
    rw [← hwalk]
    exact Marks.inForce_reverts _ _ _ _
  rw [due_filter fun key hkey => (htaken key).mpr ⟨.inl hkey, fun hback => hfree key hback hkey⟩]
  apply List.filter_congr
  intro e he
  cases hmark : e.mark? with
  | none => rfl
  | some key =>
    have hknown : marks.InForce s.clock key ∨ ∃ e ∈ entriesOf spans, e.mark? = some key :=
      .inr ⟨e, mem_of_mem_due he, hmark⟩
    simp [htaken, hknown]

end Service

end TraceIndex
