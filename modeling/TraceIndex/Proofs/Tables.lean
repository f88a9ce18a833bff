import Mathlib.Data.List.Sort
import TraceIndex.Proofs.Rows

namespace TraceIndex

namespace Rows

theorem not_before_self (key : List Cell) : compare key key ≠ .lt := by
  have hself : compare key key = .eq := Std.ReflCmp.compare_self
  rw [hself]
  decide

theorem keys_place_of_mem {rows : List Row} {r : Row}
    (h : rows.Pairwise fun r s => compare r.key s.key = .lt) (hr : r.key ∈ rows.map (·.key)) :
    (place r rows).map (·.key) = rows.map (·.key) := by
  induction rows with
  | nil => cases hr
  | cons first rest ih =>
    obtain ⟨hfirst, hrest⟩ := List.pairwise_cons.mp h
    rw [List.map_cons, List.mem_cons] at hr
    simp only [place]
    split
    · rename_i hlt
      obtain heq | hr := hr
      · exact absurd (heq ▸ hlt) (not_before_self first.key)
      · obtain ⟨s, hs, heq⟩ := List.mem_map.mp hr
        have hbefore := Std.TransCmp.lt_trans hlt (hfirst s hs)
        exact absurd (heq ▸ hbefore) (not_before_self s.key)
    · rename_i heq
      have hkey : r.key = first.key := Std.LawfulEqOrd.eq_of_compare heq
      rw [List.map_cons, List.map_cons, hkey]
    · rename_i hgt
      have hne : r.key ≠ first.key := fun heq => by simp [heq] at hgt
      rw [List.map_cons, List.map_cons, ih hrest (hr.resolve_left hne)]

/-- Rows laid over a table, one after the other. -/
def lay (rows : Rows) (news : List Row) : Rows := news.foldl upsert rows

def last? (news : List Row) (key : List Cell) : Option Row := news.reverse.find? (·.key = key)

variable {rows other : Rows} {news : List Row} {r : Row} {key : List Cell}

theorem keys_upsert_of_mem (hr : r.key ∈ rows.keys) : (rows.upsert r).keys = rows.keys :=
  keys_place_of_mem rows.ordered hr

theorem nodup_keys (rows : Rows) : rows.keys.Nodup := by
  apply List.pairwise_map.mpr (rows.ordered.imp _)
  exact fun hlt hkey => absurd (hkey ▸ hlt) (not_before_self _)

theorem key_inj {s : Row} (hr : r ∈ rows) (hs : s ∈ rows) (hkey : r.key = s.key) : r = s :=
  List.inj_on_of_nodup_map rows.nodup_keys hr hs hkey

theorem find?_eq_some : rows.find? key = some r ↔ r ∈ rows ∧ r.key = key := by
  constructor
  · exact fun h => ⟨List.mem_of_find?_eq_some h, by simpa using List.find?_some h⟩
  · rintro ⟨hr, rfl⟩
    cases h : rows.find? r.key with
    | none => exact absurd (decide_eq_true rfl) (List.find?_eq_none.mp h r hr)
    | some s =>
      have hkey : s.key = r.key := by simpa using List.find?_some h
      rw [key_inj (List.mem_of_find?_eq_some h) hr hkey]

theorem find?_key (r : Row) : rows.find? r.key = some r ↔ r ∈ rows :=
  find?_eq_some.trans (and_iff_left rfl)

/-- A table is told by what stands under each key. -/
theorem eq_of_find? (hfind : ∀ key, rows.find? key = other.find? key) : rows = other := by
  have hmem : ∀ r, r ∈ rows ↔ r ∈ other := fun r => by rw [← find?_key, hfind, find?_key]
  have hperm : rows.toList.Perm other.toList :=
    (List.perm_ext_iff_of_nodup rows.nodup_keys.of_map other.nodup_keys.of_map).mpr hmem
  have hlist : rows.toList = other.toList := by
    refine hperm.eq_of_pairwise (fun r s _ _ hrs hsr => ?_) rows.ordered other.ordered
    have hcontra := Std.OrientedCmp.gt_of_lt hrs
    rw [hsr] at hcontra
    cases hcontra
  cases rows
  cases other
  congr

theorem find?_lay (rows : Rows) (news : List Row) (key : List Cell) :
    (rows.lay news).find? key = (last? news key).or (rows.find? key) := by
  induction news generalizing rows with
  | nil => rfl
  | cons r news ih =>
    have hlast : last? (r :: news) key =
        (last? news key).or (if r.key = key then some r else none) := by
      by_cases hkey : r.key = key <;> simp [last?, hkey]
    change ((rows.upsert r).lay news).find? key = _
    rw [ih, find?_upsert, hlast]
    by_cases hkey : r.key = key <;> cases last? news key <;> simp [hkey]

theorem mem_of_last? (h : last? news key = some r) : r ∈ news ∧ r.key = key := by
  refine ⟨List.mem_reverse.mp (List.mem_of_find?_eq_some h), ?_⟩
  simpa using List.find?_some h

theorem last?_eq_none : last? news key = none ↔ ∀ r ∈ news, r.key ≠ key := by
  simp [last?]

theorem lay_lay_of_sub {early late : List Row} (hsub : ∀ r ∈ early, r ∈ late) :
    (rows.lay early).lay late = rows.lay late := by
  apply eq_of_find?
  intro key
  rw [find?_lay, find?_lay, find?_lay]
  cases hlate : last? late key with
  | some r => rfl
  | none =>
    have hearly : last? early key = none :=
      last?_eq_none.mpr fun r hr => last?_eq_none.mp hlate r (hsub r hr)
    rw [hearly, Option.none_or]

/-- Where the key tells the row, rows may be laid in two parts. -/
theorem lay_lay_of_split {early late : List Row}
    (hearly : ∀ r ∈ early, r ∈ news) (hlate : ∀ r ∈ late, r ∈ news)
    (hsplit : ∀ r ∈ news, r ∈ early ∨ r ∈ late)
    (hkey : ∀ r ∈ news, ∀ r' ∈ news, r.key = r'.key → r = r') :
    (rows.lay early).lay late = rows.lay news := by
  -- A key that stands in a part has the same row there as in the whole.
  have found : ∀ {part : List Row} {key : List Cell}, (∀ r ∈ part, r ∈ news) →
      ∀ r ∈ part, r.key = key → last? part key = last? news key := by
    intro part key hpart r hr hrkey
    have pick : ∀ l : List Row, (∀ r ∈ l, r ∈ news) → r ∈ l → last? l key = some r := by
      intro l hl hmem
      cases hlast : last? l key with
      | none => exact absurd hrkey (last?_eq_none.mp hlast r hmem)
      | some last =>
        obtain ⟨hmem', hkey'⟩ := mem_of_last? hlast
        rw [hkey last (hl last hmem') r (hl r hmem) (hkey'.trans hrkey.symm)]
    rw [pick part hpart hr, pick news (fun _ h => h) (hpart r hr)]
  apply eq_of_find?
  intro key
  rw [find?_lay, find?_lay, find?_lay]
  cases hlast : last? late key with
  | some r =>
    obtain ⟨hmem, hr⟩ := mem_of_last? hlast
    rw [← found hlate r hmem hr, hlast, Option.some_or, Option.some_or]
  | none =>
    rw [Option.none_or]
    congr 1
    cases hlast' : last? early key with
    | some r =>
      obtain ⟨hmem, hr⟩ := mem_of_last? hlast'
      rw [← found hearly r hmem hr, hlast']
    | none =>
      refine (last?_eq_none.mpr fun r hr => ?_).symm
      exact (hsplit r hr).elim (last?_eq_none.mp hlast' r) (last?_eq_none.mp hlast r)

/-- Laying rows over a table changes nothing exactly if those that they leave are there already. -/
theorem lay_eq_self_iff : rows.lay news = rows ↔ ∀ r ∈ empty.lay news, r ∈ rows := by
  have hlast : ∀ key, (empty.lay news).find? key = last? news key := fun key => by
    rw [find?_lay]
    exact Option.or_none
  constructor
  · intro hsame r hr
    have hfind := find?_lay rows news r.key
    rw [hsame, ← hlast, (find?_key r).mpr hr, Option.some_or] at hfind
    exact (find?_key r).mp hfind
  · intro hsub
    apply eq_of_find?
    intro key
    rw [find?_lay, ← hlast]
    cases hr : (empty.lay news).find? key with
    | none => rfl
    | some r =>
      obtain ⟨hmem, rfl⟩ := find?_eq_some.mp hr
      exact ((find?_key r).mpr (hsub r hmem)).symm

end Rows

namespace Keyspace

variable {k : Keyspace} {st : Statement} {sts : List Statement} {t : Table}

theorem rowOf_clearFaults {row : Row} (h : k.rowOf st = .ok row) :
    k.clearFaults.rowOf st = .ok row := by
  obtain ⟨hvalid, -, key, hkey, rfl⟩ := rowOf_eq_ok.mp h
  exact rowOf_eq_ok.mpr ⟨hvalid, rfl, key, hkey, rfl⟩

def stored (k : Keyspace) (sts : List Statement) (t : Table) : List Row :=
  (sts.filter (·.table = t)).filterMap fun st => (k.rowOf st).toOption

theorem stored_append (k : Keyspace) (sts more : List Statement) (t : Table) :
    k.stored (sts ++ more) t = k.stored sts t ++ k.stored more t := by
  rw [stored, stored, stored, ← List.filterMap_append, ← List.filter_append]

theorem stored_congr {k' : Keyspace} (h : k.rowOf = k'.rowOf) : k.stored = k'.stored := by
  funext sts t
  rw [stored, stored, h]

theorem mem_stored_clearFaults {row : Row} (h : row ∈ k.stored sts t) :
    row ∈ k.clearFaults.stored sts t := by
  obtain ⟨st, hst, hrow⟩ := List.mem_filterMap.mp h
  exact List.mem_filterMap.mpr
    ⟨st, hst, toOption_eq_some.mpr (rowOf_clearFaults (toOption_eq_some.mp hrow))⟩

theorem stored_of_ok (h : ∀ st ∈ sts, (k.execute st).1 = .ok ()) (t : Table) :
    k.stored sts t = k.clearFaults.stored sts t := by
  apply List.filterMap_congr
  intro st hst
  obtain ⟨row, hrow⟩ := applies_iff.mp (applies_iff_ok.mpr (h st (List.mem_of_mem_filter hst)))
  rw [hrow, rowOf_clearFaults hrow]

theorem rows_tell : (k.tell st).rows.get t = (k.rows.get t).lay (k.stored [st] t) := by
  cases hrow : k.rowOf st with
  | ok row =>
    rw [rows_of_ok hrow, PerTable.get_set]
    by_cases ht : st.table = t
    · simp [stored, ht, hrow, Except.toOption, Rows.lay]
    · simp [stored, ht, Ne.symm ht, Rows.lay]
  | error failure =>
    have hnone : k.stored [st] t = [] := by
      by_cases ht : st.table = t <;> simp [stored, ht, hrow, Except.toOption]
    rw [rows_of_error hrow, hnone]
    rfl

/-- Statements lay the rows that they store over each table. -/
theorem rows_tellAll :
    (k.tellAll sts).rows.get t = (k.rows.get t).lay (k.stored sts t) := by
  induction sts generalizing k with
  | nil => rfl
  | cons st sts ih =>
    have hsame : (k.tell st).stored = k.stored :=
      stored_congr (rowOf_congr tell_options tell_faults)
    have hsplit : k.stored (st :: sts) t = k.stored [st] t ++ k.stored sts t :=
      k.stored_append [st] sts t
    rw [tellAll_cons, ih, rows_tell, hsame, hsplit]
    exact List.foldl_append.symm

/-- A statement that was told before adds no key, whatever was told in between. -/
theorem keys_tell_again :
    (((k.tell st).tellAll sts).tell st).keys t = ((k.tell st).tellAll sts).keys t := by
  let k' := (k.tell st).tellAll sts
  have hsame : k'.rowOf = k.rowOf := by
    apply rowOf_congr
    · simp only [k', tellAll_options, tell_options]
    · simp only [k', tellAll_faults, tell_faults]
  change ((k'.tell st).rows.get t).keys = (k'.rows.get t).keys
  cases hrow : k.rowOf st with
  | error failure => rw [rows_of_error (hsame ▸ hrow)]
  | ok row =>
    rw [rows_of_ok (hsame ▸ hrow), PerTable.get_set]
    split
    · rename_i ht
      subst ht
      have hkey : row.key ∈ k'.keys st.table := by
        apply (mem_keys_tellAll st.table row.key sts).mpr
        apply Or.inl
        apply (mem_keys_tell st.table row.key).mpr
        exact .inr ⟨applies_iff.mpr ⟨row, hrow⟩, rfl, key_of_rowOf hrow⟩
      exact Rows.keys_upsert_of_mem hkey
    · rfl

end Keyspace

end TraceIndex
