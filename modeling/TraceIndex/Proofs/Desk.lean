import TraceIndex.Ingest.Attempt
import TraceIndex.Proofs.Marks

namespace TraceIndex

/-- What is left of a list in which a key stands once: elements whose key is taken or stood before
are left out, and those without a key stay. -/
def due {α : Type} (key? : α → Option String) (taken : List String) : List α → List α
  | [] => []
  | a :: rest =>
    match key? a with
    | none => a :: due key? taken rest
    | some key => if key ∈ taken then due key? taken rest else a :: due key? (key :: taken) rest

section Due

variable {α β : Type} {key? : α → Option String}

theorem due_cons_none {a : α} (h : key? a = none) (taken : List String) (l : List α) :
    due key? taken (a :: l) = a :: due key? taken l := by
  simp only [due, h]

theorem due_cons_taken {a : α} {key : String} (h : key? a = some key) {taken : List String}
    (hk : key ∈ taken) (l : List α) : due key? taken (a :: l) = due key? taken l := by
  simp only [due, h, hk, ↓reduceIte]

theorem due_cons_free {a : α} {key : String} (h : key? a = some key) {taken : List String}
    (hk : key ∉ taken) (l : List α) :
    due key? taken (a :: l) = a :: due key? (key :: taken) l := by
  simp only [due, h, hk, ↓reduceIte]

theorem due_map (f : β → α) (taken : List String) (l : List β) :
    due key? taken (l.map f) = (due (key? ∘ f) taken l).map f := by
  induction l generalizing taken with
  | nil => rfl
  | cons b l ih =>
    rw [List.map_cons]
    cases h : key? (f b) with
    | none =>
      have h' : (key? ∘ f) b = none := h
      rw [due_cons_none h, due_cons_none h', ih, List.map_cons]
    | some key =>
      have h' : (key? ∘ f) b = some key := h
      by_cases hk : key ∈ taken
      · rw [due_cons_taken h hk, due_cons_taken h' hk, ih]
      · rw [due_cons_free h hk, due_cons_free h' hk, ih, List.map_cons]

theorem due_congr {taken other : List String} (h : ∀ key, key ∈ taken ↔ key ∈ other) (l : List α) :
    due key? taken l = due key? other l := by
  induction l generalizing taken other with
  | nil => rfl
  | cons a l ih =>
    cases ha : key? a with
    | none => rw [due_cons_none ha, due_cons_none ha, ih h]
    | some key =>
      by_cases hk : key ∈ taken
      · rw [due_cons_taken ha hk, due_cons_taken ha ((h key).mp hk), ih h]
      · rw [due_cons_free ha hk, due_cons_free ha fun ho => hk ((h key).mpr ho), ih]
        intro k
        rw [List.mem_cons, List.mem_cons, h]

theorem mem_of_mem_due {taken : List String} {a : α} {l : List α} (h : a ∈ due key? taken l) :
    a ∈ l := by
  induction l generalizing taken with
  | nil => exact h
  | cons b l ih =>
    cases hb : key? b with
    | none =>
      rw [due_cons_none hb] at h
      obtain rfl | h := List.mem_cons.mp h
      · exact List.mem_cons_self
      · exact List.mem_cons_of_mem _ (ih h)
    | some key =>
      by_cases hk : key ∈ taken
      · rw [due_cons_taken hb hk] at h
        exact List.mem_cons_of_mem _ (ih h)
      · rw [due_cons_free hb hk] at h
        obtain rfl | h := List.mem_cons.mp h
        · exact List.mem_cons_self
        · exact List.mem_cons_of_mem _ (ih h)

theorem mem_due_of_none (taken : List String) {a : α} {l : List α} (ha : a ∈ l)
    (hkey : key? a = none) : a ∈ due key? taken l := by
  induction l generalizing taken with
  | nil => cases ha
  | cons b l ih =>
    obtain rfl | ha := List.mem_cons.mp ha
    · rw [due_cons_none hkey]
      exact List.mem_cons_self
    · cases hb : key? b with
      | none =>
        rw [due_cons_none hb]
        exact List.mem_cons_of_mem _ (ih _ ha)
      | some key =>
        by_cases hk : key ∈ taken
        · rw [due_cons_taken hb hk]
          exact ih _ ha
        · rw [due_cons_free hb hk]
          exact List.mem_cons_of_mem _ (ih _ ha)

theorem key_taken_or_due (taken : List String) {a : α} {l : List α} {key : String} (ha : a ∈ l)
    (hk : key? a = some key) :
    key ∈ taken ∨ ∃ b ∈ due key? taken l, key? b = some key := by
  induction l generalizing taken with
  | nil => cases ha
  | cons b l ih =>
    obtain rfl | hal := List.mem_cons.mp ha
    · by_cases hmem : key ∈ taken
      · exact .inl hmem
      · rw [due_cons_free hk hmem]
        exact .inr ⟨a, List.mem_cons_self, hk⟩
    · cases hb : key? b with
      | none =>
        rw [due_cons_none hb]
        obtain h | ⟨c, hc, hck⟩ := ih taken hal
        · exact .inl h
        · exact .inr ⟨c, List.mem_cons_of_mem _ hc, hck⟩
      | some other =>
        by_cases hother : other ∈ taken
        · rw [due_cons_taken hb hother]
          exact ih taken hal
        · rw [due_cons_free hb hother]
          obtain h | ⟨c, hc, hck⟩ := ih (other :: taken) hal
          · obtain rfl | h := List.mem_cons.mp h
            · exact .inr ⟨b, List.mem_cons_self, hb⟩
            · exact .inl h
          · exact .inr ⟨c, List.mem_cons_of_mem _ hc, hck⟩

theorem key_of_due (taken : List String) (l : List α) :
    ((due key? taken l).filterMap key?).Nodup ∧
      ∀ key ∈ (due key? taken l).filterMap key?, key ∉ taken := by
  induction l generalizing taken with
  | nil => exact ⟨List.nodup_nil, fun key hkey => absurd hkey List.not_mem_nil⟩
  | cons a l ih =>
    cases ha : key? a with
    | none =>
      rw [due_cons_none ha, List.filterMap_cons_none ha]
      exact ih taken
    | some key =>
      by_cases hk : key ∈ taken
      · rw [due_cons_taken ha hk]
        exact ih taken
      · obtain ⟨hnodup, hfree⟩ := ih (key :: taken)
        rw [due_cons_free ha hk, List.filterMap_cons_some ha]
        constructor
        · apply List.nodup_cons.mpr
          exact ⟨fun h => hfree key h List.mem_cons_self, hnodup⟩
        · intro k h
          obtain rfl | h := List.mem_cons.mp h
          · exact hk
          · exact fun ht => hfree k h (List.mem_cons_of_mem _ ht)

end Due

namespace Desk

def drafts (w : Writer) : List Entry → RandomBuckets → List Attempt × RandomBuckets
  | [], buckets => ([], buckets)
  | e :: rest, buckets =>
    let (statement, buckets) := w.statement e buckets
    let (others, buckets) := drafts w rest buckets
    (⟨statement, e.mark?⟩ :: others, buckets)

variable {d : Desk} {w : Writer} {now : Clock} {e : Entry}

theorem attempt_of_mark_none (h : e.mark? = none) :
    d.attempt w now e =
      (some ⟨(w.statement e d.buckets).1, e.mark?⟩,
        { d with buckets := (w.statement e d.buckets).2 }) := by
  simp [attempt, setMark, h]

theorem attempt_of_inForce {key : String} (h : e.mark? = some key) (hk : d.marks.InForce now key) :
    d.attempt w now e = (none, { d with marks := d.marks.refresh now }) := by
  simp [attempt, setMark, h, Marks.mark_eq_of_inForce hk]

theorem attempt_of_not_inForce {key : String} (h : e.mark? = some key)
    (hk : ¬ d.marks.InForce now key) :
    d.attempt w now e =
      (some ⟨(w.statement e d.buckets).1, e.mark?⟩,
        { marks := (d.marks.mark now key).2, buckets := (w.statement e d.buckets).2 }) := by
  simp [attempt, setMark, h, Marks.mark_eq_of_not_inForce hk]

theorem made_cons (a : Attempt) (l : List (Option Attempt)) :
    (some a :: l).filterMap id = a :: l.filterMap id := rfl

theorem attempts_cons (w : Writer) (now : Clock) (e : Entry) (rest : List Entry) (d : Desk) :
    attempts w now (e :: rest) d =
      ((d.attempt w now e).1 :: (attempts w now rest (d.attempt w now e).2).1,
        (attempts w now rest (d.attempt w now e).2).2) := rfl

theorem drafts_cons (w : Writer) (e : Entry) (rest : List Entry) (buckets : RandomBuckets) :
    drafts w (e :: rest) buckets =
      (⟨(w.statement e buckets).1, e.mark?⟩ :: (drafts w rest (w.statement e buckets).2).1,
        (drafts w rest (w.statement e buckets).2).2) := rfl

/-- Walking over entries attempts those that are due, with the buckets drawn in their order. -/
theorem attempts_eq (w : Writer) (now : Clock) (entries : List Entry) (d : Desk) :
    (attempts w now entries d).1.filterMap id =
        (drafts w (due Entry.mark? (d.marks.refresh now).marked entries) d.buckets).1 ∧
      (attempts w now entries d).2.buckets =
        (drafts w (due Entry.mark? (d.marks.refresh now).marked entries) d.buckets).2 := by
  induction entries generalizing d with
  | nil => exact ⟨rfl, rfl⟩
  | cons e rest ih =>
    rw [attempts_cons]
    cases he : e.mark? with
    | none =>
      obtain ⟨hl, hr⟩ := ih { d with buckets := (w.statement e d.buckets).2 }
      rw [attempt_of_mark_none he, due_cons_none he, drafts_cons, made_cons]
      exact ⟨congrArg (List.cons _) hl, hr⟩
    | some key =>
      by_cases hk : d.marks.InForce now key
      · obtain ⟨hl, hr⟩ := ih { d with marks := d.marks.refresh now }
        rw [Marks.refresh_refresh] at hl hr
        rw [attempt_of_inForce he hk, due_cons_taken he hk]
        exact ⟨hl, hr⟩
      · obtain ⟨hl, hr⟩ := ih ⟨(d.marks.mark now key).2, (w.statement e d.buckets).2⟩
        have hdue : due Entry.mark? ((d.marks.mark now key).2.refresh now).marked rest =
            due Entry.mark? (key :: (d.marks.refresh now).marked) rest :=
          due_congr (fun k => (Marks.inForce_mark d.marks now key k).trans List.mem_cons.symm) rest
        rw [hdue] at hl hr
        rw [attempt_of_not_inForce he hk, due_cons_free he hk, drafts_cons, made_cons]
        exact ⟨congrArg (List.cons _) hl, hr⟩

theorem inForce_attempts (w : Writer) (now : Clock) (entries : List Entry) (d : Desk)
    (key : String) :
    (attempts w now entries d).2.marks.InForce now key ↔
      d.marks.InForce now key ∨ ∃ e ∈ entries, e.mark? = some key := by
  induction entries generalizing d with
  | nil => simp [attempts]
  | cons e rest ih =>
    have hstep : (d.attempt w now e).2.marks.InForce now key ↔
        d.marks.InForce now key ∨ e.mark? = some key := by
      cases he : e.mark? with
      | none => simp [attempt_of_mark_none he]
      | some other =>
        by_cases hk : d.marks.InForce now other
        · rw [attempt_of_inForce he hk, Marks.inForce_refresh]
          exact ⟨.inl, fun h => h.elim id fun h => Option.some.inj h ▸ hk⟩
        · rw [attempt_of_not_inForce he hk, Marks.inForce_mark, Option.some.injEq, or_comm,
            eq_comm]
    simp only [attempts, ih, hstep, List.mem_cons, exists_eq_or_imp, or_assoc]

theorem attempts_length (w : Writer) (now : Clock) (entries : List Entry) (d : Desk) :
    (attempts w now entries d).2.marks.length = d.marks.length := by
  induction entries generalizing d with
  | nil => rfl
  | cons e rest ih =>
    rw [attempts_cons, ih]
    cases he : e.mark? with
    | none => rw [attempt_of_mark_none he]
    | some key =>
      by_cases hk : d.marks.InForce now key
      · rw [attempt_of_inForce he hk]
        rfl
      · rw [attempt_of_not_inForce he hk]
        exact Marks.mark_length ..

theorem mem_drafts {w : Writer} {entries : List Entry} {buckets : RandomBuckets} {a : Attempt}
    (h : a ∈ (drafts w entries buckets).1) :
    ∃ e ∈ entries, ∃ drawn, a = ⟨(w.statement e drawn).1, e.mark?⟩ := by
  induction entries generalizing buckets with
  | nil => simp [drafts] at h
  | cons e rest ih =>
    obtain rfl | h := List.mem_cons.mp h
    · exact ⟨e, List.mem_cons_self, buckets, rfl⟩
    · obtain ⟨e', he', hdrawn⟩ := ih h
      exact ⟨e', List.mem_cons_of_mem _ he', hdrawn⟩

theorem exists_draft (w : Writer) {entries : List Entry} (he : e ∈ entries)
    (buckets : RandomBuckets) :
    ∃ drawn, ⟨(w.statement e drawn).1, e.mark?⟩ ∈ (drafts w entries buckets).1 := by
  induction entries generalizing buckets with
  | nil => cases he
  | cons first rest ih =>
    rw [drafts_cons]
    obtain rfl | he := List.mem_cons.mp he
    · exact ⟨buckets, List.mem_cons_self⟩
    · obtain ⟨drawn, hdrawn⟩ := ih he (w.statement first buckets).2
      exact ⟨drawn, List.mem_cons_of_mem _ hdrawn⟩

theorem drafts_marks (w : Writer) (entries : List Entry) (buckets : RandomBuckets) :
    (drafts w entries buckets).1.map (·.mark) = entries.map Entry.mark? := by
  induction entries generalizing buckets with
  | nil => rfl
  | cons e rest ih => simp only [drafts, List.map_cons, ih]

theorem live_attempt {key : String} (h : (d.attempt w now e).2.marks.Live key) :
    d.marks.Live key ∧ d.marks.window = (d.attempt w now e).2.marks.window ∨
      ∃ a, (d.attempt w now e).1 = some a ∧ a.mark = some key := by
  cases he : e.mark? with
  | none =>
    rw [attempt_of_mark_none he] at h ⊢
    exact .inl ⟨h, rfl⟩
  | some other =>
    by_cases hk : d.marks.InForce now other
    · rw [attempt_of_inForce he hk] at h ⊢
      have hforce := (Marks.live_refresh ..).mp h
      exact .inl ⟨hforce.live, hforce.window.symm⟩
    · rw [attempt_of_not_inForce he hk] at h ⊢
      obtain rfl | hforce := (Marks.live_mark ..).mp h
      · exact .inr ⟨_, rfl, he⟩
      · exact .inl ⟨hforce.live, hforce.window.symm.trans (Marks.mark_window ..).symm⟩

theorem live_attempts {entries : List Entry} {key : String}
    (h : (attempts w now entries d).2.marks.Live key) :
    d.marks.Live key ∧ d.marks.window = (attempts w now entries d).2.marks.window ∨
      ∃ a ∈ (attempts w now entries d).1.filterMap id, a.mark = some key := by
  induction entries generalizing d with
  | nil => exact .inl ⟨h, rfl⟩
  | cons e rest ih =>
    simp only [attempts] at h ⊢
    obtain ⟨hlive, hwindow⟩ | ⟨a, ha, hmark⟩ := ih h
    · obtain ⟨hlive, hwindow'⟩ | ⟨a, ha, hmark⟩ := live_attempt hlive
      · exact .inl ⟨hlive, hwindow'.trans hwindow⟩
      · exact .inr ⟨a, by simp [ha], hmark⟩
    · rw [List.mem_filterMap] at ha
      obtain ⟨a', ha', rfl⟩ := ha
      exact .inr ⟨a, List.mem_filterMap.mpr ⟨some a, List.mem_cons_of_mem _ ha', rfl⟩, hmark⟩

theorem inForce_or_attempted (d : Desk) (w : Writer) (now : Clock) {entries : List Entry}
    {key : String} (he : e ∈ entries) (hk : e.mark? = some key) :
    d.marks.InForce now key ∨
      ∃ a ∈ (attempts w now entries d).1.filterMap id, a.mark = some key := by
  obtain htaken | ⟨b, hb, hbk⟩ := key_taken_or_due (d.marks.refresh now).marked he hk
  · exact .inl htaken
  · have hmark : some key ∈ (drafts w (due Entry.mark? (d.marks.refresh now).marked entries)
        d.buckets).1.map (·.mark) := by
      rw [drafts_marks]
      exact List.mem_map.mpr ⟨b, hb, hbk⟩
    obtain ⟨a, ha, hak⟩ := List.mem_map.mp hmark
    exact .inr ⟨a, (attempts_eq w now entries d).1 ▸ ha, hak⟩

/-- A walk attempts no two writes for one key, and none for a key that is in force. -/
theorem keys_attempted (d : Desk) (w : Writer) (now : Clock) (entries : List Entry) :
    (((attempts w now entries d).1.filterMap id).filterMap (·.mark)).Nodup ∧
      ∀ key ∈ ((attempts w now entries d).1.filterMap id).filterMap (·.mark),
        ¬ d.marks.InForce now key := by
  have hmarks := congrArg (List.filterMap id) (drafts_marks w
    (due Entry.mark? (d.marks.refresh now).marked entries) d.buckets)
  rw [List.filterMap_map, List.filterMap_map] at hmarks
  rw [(attempts_eq w now entries d).1]
  have hkeys : ((drafts w (due Entry.mark? (d.marks.refresh now).marked entries)
      d.buckets).1).filterMap (·.mark) =
        (due Entry.mark? (d.marks.refresh now).marked entries).filterMap Entry.mark? := hmarks
  rw [hkeys]
  exact key_of_due _ _

end Desk

end TraceIndex
