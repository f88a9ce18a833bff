import TraceIndex.Proofs.Fanout
import TraceIndex.Proofs.Keys
import TraceIndex.Proofs.Runs

namespace TraceIndex

namespace Rows

theorem find?_place (r : Row) (rows : List Row) (key : List Cell) :
    (place r rows).find? (·.key = key) =
      if r.key = key then some r else rows.find? (·.key = key) := by
  induction rows with
  | nil => by_cases h : r.key = key <;> simp [place, h]
  | cons first rest ih =>
    simp only [place]
    split
    · by_cases h : r.key = key <;> simp [h]
    · rename_i heq
      have hkey : r.key = first.key := Std.LawfulEqOrd.eq_of_compare heq
      by_cases h : r.key = key
      · simp [h]
      · simp [h, hkey ▸ h]
    · rename_i hgt
      have hne : r.key ≠ first.key := fun heq => by simp [heq] at hgt
      rw [List.find?_cons, List.find?_cons, ih]
      by_cases h : first.key = key
      · simp [h, h ▸ hne]
      · simp [h]

theorem find?_upsert (rows : Rows) (r : Row) (key : List Cell) :
    (rows.upsert r).find? key = if r.key = key then some r else rows.find? key :=
  find?_place r rows.toList key

end Rows

namespace Write

def ofRow (table : Table) (row : Row) : Write := ⟨table, row.key, row.payload⟩

/-- The last of some writes under a key. -/
def lastUnder (writes : List Write) (table : Table) (key : List Cell) : Option Write :=
  writes.reverse.find? fun w => w.table = table ∧ w.key = key

variable {writes more : List Write} {table : Table} {key : List Cell} {w : Write}

@[simp] theorem lastUnder_nil : lastUnder [] table key = none := rfl

@[simp] theorem lastUnder_append :
    lastUnder (writes ++ more) table key =
      (lastUnder more table key).or (lastUnder writes table key) := by
  simp only [lastUnder, List.reverse_append, List.find?_append]

theorem of_lastUnder (h : lastUnder writes table key = some w) :
    ∃ before after, writes = before ++ w :: after ∧ w.table = table ∧ w.key = key ∧
      ∀ w' ∈ after, ¬ (w'.table = table ∧ w'.key = key) := by
  obtain ⟨hw, later, earlier, hsplit, hlater⟩ := List.find?_eq_some_iff_append.mp h
  refine ⟨earlier.reverse, later.reverse, ?_, (of_decide_eq_true hw).1, (of_decide_eq_true hw).2,
    fun w' hw' => ?_⟩
  · rw [← List.reverse_reverse writes, hsplit]
    simp
  · have hother := hlater w' (List.mem_reverse.mp hw')
    exact fun hunder => by simp [hunder] at hother

theorem exists_lastUnder (h : w ∈ writes) :
    ∃ last, lastUnder writes w.table w.key = some last := by
  have hsome : (lastUnder writes w.table w.key).isSome := by
    rw [lastUnder, List.find?_isSome]
    exact ⟨w, List.mem_reverse.mpr h, by simp⟩
  exact Option.isSome_iff_exists.mp hsome

end Write

def Report.write? : Report → Option Write
  | .answered st (.ok ()) => st.write?
  | _ => none

def written (past : List Report) : List Write := past.filterMap Report.write?

theorem written_append (past more : List Report) :
    written (past ++ more) = written past ++ written more :=
  List.filterMap_append

theorem mem_written {past : List Report} {w : Write} :
    w ∈ written past ↔ ∃ st, .answered st (.ok ()) ∈ past ∧ st.write? = some w := by
  rw [written, List.mem_filterMap]
  constructor
  · rintro ⟨r, hr, hw⟩
    obtain span | ⟨st, failure | ok⟩ := r
    · cases hw
    · cases hw
    · exact ⟨st, hr, hw⟩
  · rintro ⟨st, hst, hw⟩
    exact ⟨_, hst, hw⟩

namespace Keyspace

variable {k : Keyspace} {st : Statement} {t : Table} {key : List Cell}

def payload? (k : Keyspace) (t : Table) (key : List Cell) : Option (List (String × Cell)) :=
  (k.get? t key).map (·.payload)

theorem write?_of_rowOf {row : Row} (h : k.rowOf st = .ok row) :
    st.write? = some (.ofRow st.table row) := by
  obtain ⟨-, -, key, hkey, rfl⟩ := rowOf_eq_ok.mp h
  rw [Statement.write?, hkey, Option.map_some, Write.ofRow]

def writes (k : Keyspace) (st : Statement) : List Write :=
  if k.applies st then st.write?.toList else []

theorem writes_of_ok {row : Row} (h : k.rowOf st = .ok row) :
    k.writes st = [.ofRow st.table row] := by
  rw [writes, if_pos (applies_iff.mpr ⟨row, h⟩), write?_of_rowOf h]
  rfl

theorem writes_of_error {failure : StoreFailure} (h : k.rowOf st = .error failure) :
    k.writes st = [] := by
  simp [writes, applies, execute_of_error h, Except.isOk, Except.toBool]

theorem writes_tell : (k.tell st).writes = k.writes := by
  funext other
  rw [writes, writes, applies, applies, reply_congr tell_options tell_faults]

theorem payload?_tell :
    (k.tell st).payload? t key =
      ((Write.lastUnder (k.writes st) t key).map (·.payload)).or (k.payload? t key) := by
  cases h : k.rowOf st with
  | error failure =>
    rw [payload?, payload?, get?, get?, rows_of_error h, writes_of_error h]
    rfl
  | ok row =>
    rw [payload?, payload?, get?, get?, rows_of_ok h, writes_of_ok h, PerTable.get_set]
    by_cases ht : st.table = t
    · subst ht
      by_cases hkey : row.key = key <;>
        simp [Rows.find?_upsert, Write.lastUnder, Write.ofRow, hkey]
    · simp [Ne.symm ht, Write.lastUnder, Write.ofRow, ht]

/-- Under each key stands what was written last. -/
theorem payload?_tellAll (sts : List Statement) :
    (k.tellAll sts).payload? t key =
      ((Write.lastUnder (sts.flatMap k.writes) t key).map (·.payload)).or (k.payload? t key) := by
  induction sts generalizing k with
  | nil => simp
  | cons st sts ih =>
    rw [tellAll_cons, ih, payload?_tell, writes_tell, List.flatMap_cons, Write.lastUnder_append,
      Option.map_or, Option.or_assoc]

theorem row_of_tell {row : Row} (h : row ∈ (k.tell st).rows.get t) :
    row ∈ k.rows.get t ∨ st.table = t ∧ k.rowOf st = .ok row := by
  cases hrow : k.rowOf st with
  | error failure =>
    rw [rows_of_error hrow] at h
    exact .inl h
  | ok stored =>
    rw [rows_of_ok hrow, PerTable.get_set] at h
    split at h
    · rename_i ht
      obtain rfl | h := Rows.mem_of_mem_upsert h
      · exact .inr ⟨ht.symm, rfl⟩
      · exact .inl (ht ▸ h)
    · exact .inl h

theorem mem_rows_tell {row : Row} (h : row ∈ (k.tell st).rows.get t) :
    row ∈ k.rows.get t ∨ .ofRow t row ∈ k.writes st := by
  obtain h | ⟨rfl, hrow⟩ := row_of_tell h
  · exact .inl h
  · rw [writes_of_ok hrow]
    exact .inr List.mem_cons_self

theorem mem_rows_tellAll {sts : List Statement} {row : Row}
    (h : row ∈ (k.tellAll sts).rows.get t) :
    row ∈ k.rows.get t ∨ .ofRow t row ∈ sts.flatMap k.writes := by
  induction sts generalizing k with
  | nil => exact .inl h
  | cons st sts ih =>
    rw [List.flatMap_cons, List.mem_append]
    obtain h | h := ih h
    · exact (mem_rows_tell h).imp_right .inl
    · exact .inr (.inr (writes_tell ▸ h))

theorem written_replies (sts : List Statement) :
    written (sts.map fun st => .answered st (k.execute st).1) = sts.flatMap k.writes := by
  induction sts with
  | nil => rfl
  | cons st sts ih =>
    rw [List.map_cons, ← List.singleton_append, written_append, ih, List.flatMap_cons]
    congr 1
    cases h : (k.execute st).1 with
    | ok =>
      cases hw : st.write? <;>
        simp [written, Report.write?, writes, applies, h, hw, Except.isOk, Except.toBool]
    | error failure => simp [written, Report.write?, writes, applies, h, Except.isOk, Except.toBool]

end Keyspace

namespace Service

variable {s : Service} {past : List Report}

theorem written_accept {worker : Nat} {marks : Marks} (h : s.workers[worker]? = some marks)
    (spans : List Span) :
    written (s.reports (.accept worker spans)) =
      ((s.started marks spans).filterMap s.direct?).flatMap s.store.writes := by
  have hspans : written (spans.map .accepted) = [] := by
    rw [written, List.filterMap_map]
    exact List.filterMap_eq_nil_iff.mpr fun _ _ => rfl
  rw [reports_accept h, written_append, hspans, Keyspace.written_replies, List.nil_append]

theorem written_resolve (st : Statement) (fate : Fate) :
    written [.answered st (s.replyTo st fate)] =
      match fate with
      | .released => s.store.writes st
      | .abandoned => [] := by
  cases fate with
  | released =>
    have h := s.store.written_replies [st]
    rwa [List.flatMap_singleton] at h
  | abandoned => rfl

theorem rows_preserved (before : PerTable Rows) : Preserved fun past s =>
    ∀ t, ∀ row ∈ s.store.rows.get t, row ∈ before.get t ∨ .ofRow t row ∈ written past where
  hire _ _ hs := hs
  accept past s worker marks spans h hs := by
    intro t row hrow
    rw [accept_store h] at hrow
    rw [written_append, List.mem_append, written_accept h]
    obtain hrow | hnew := Keyspace.mem_rows_tellAll hrow
    · exact (hs t row hrow).imp_right .inl
    · exact .inr (.inr hnew)
  tends past s t h hs := by
    rw [h.frame.2.2]
    exact hs
  resolve past s fate h hh hs := by
    intro t row hrow
    rw [resolveUnder_of_some hh] at hrow
    rw [written_append, List.mem_append, written_resolve]
    cases fate with
    | released =>
      obtain hrow | hnew := Keyspace.mem_rows_tell hrow
      · exact (hs t row hrow).imp_right .inl
      · exact .inr (.inr hnew)
    | abandoned => exact (hs t row hrow).imp_right .inl
  look _ _ _ hs := hs
  set _ _ _ _ _ hs := hs

/-- Under every key stands what was written last, or what was there before. -/
theorem payload?_preserved (before : Keyspace) : Preserved fun past s => ∀ t key,
    s.store.payload? t key =
      ((Write.lastUnder (written past) t key).map (·.payload)).or (before.payload? t key) where
  hire _ _ hs := hs
  accept past s worker marks spans h hs := by
    intro t key
    rw [accept_store h, Keyspace.payload?_tellAll, hs, written_append, Write.lastUnder_append,
      written_accept h, Option.map_or, Option.or_assoc]
  tends past s t h hs := by
    rw [h.frame.2.2]
    exact hs
  resolve past s fate h hh hs := by
    intro t key
    rw [resolveUnder_of_some hh, written_append, Write.lastUnder_append, written_resolve]
    cases fate with
    | released =>
      change (s.store.tell h.2).payload? t key = _
      rw [Keyspace.payload?_tell, hs, Option.map_or, Option.or_assoc]
    | abandoned =>
      change s.store.payload? t key = _
      rw [hs]
      rfl
  look _ _ _ hs := hs
  set _ _ _ _ _ hs := hs

end Service

end TraceIndex
