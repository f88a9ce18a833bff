import Mathlib.Data.List.Induction
import TraceIndex.Proofs.Forms

namespace TraceIndex

namespace Form

variable {α : Type}

def Once (names : List String) (found : List (String × α)) : Prop :=
  ∀ name ∈ names, (found.map (·.1)).count name ≤ 1

instance (names : List String) (found : List (String × α)) : Decidable (Once names found) :=
  inferInstanceAs (Decidable (∀ name ∈ names, _))

def lookups (names : List String) (found : List (String × α)) : List (Option α) :=
  names.map (found.lookup ·)

theorem once_append {names : List String} {found : List (String × α)} {m : String × α} :
    Once names (found ++ [m]) ↔
      Once names found ∧ ¬ (m.1 ∈ names ∧ m.1 ∈ found.map (·.1)) := by
  have hcount (name : String) : ((found ++ [m]).map (·.1)).count name =
      (found.map (·.1)).count name + if m.1 = name then 1 else 0 := by
    rw [List.map_append, List.count_append, List.map_singleton, List.count_singleton]
    simp
  constructor
  · intro h
    refine ⟨fun name hname => ?_, fun ⟨hname, hfound⟩ => ?_⟩
    · have hle := h name hname
      rw [hcount] at hle
      omega
    · have hle := h m.1 hname
      have hpos := List.count_pos_iff.mpr hfound
      rw [hcount, if_pos rfl] at hle
      omega
  · rintro ⟨honce, hnew⟩ name hname
    rw [hcount]
    split
    · rename_i heq
      have hzero := List.count_eq_zero.mpr fun hfound => hnew ⟨heq ▸ hname, heq ▸ hfound⟩
      omega
    · exact honce name hname

theorem lookup_append_singleton (found : List (String × α)) (m : String × α) (name : String) :
    (found ++ [m]).lookup name =
      (found.lookup name).or (if name = m.1 then some m.2 else none) := by
  have hlast : List.lookup name [m] = if name = m.1 then some m.2 else none := by
    rw [List.lookup_cons]
    by_cases h : name = m.1
    · rw [if_pos h, beq_iff_eq.mpr h]
    · rw [if_neg h, beq_eq_false_iff_ne.mpr h, List.lookup_nil]
  rw [List.lookup_append, hlast]

theorem lookup_eq_none {found : List (String × α)} {name : String} :
    found.lookup name = none ↔ name ∉ found.map (·.1) := by
  rw [List.lookup_eq_none_iff]
  constructor
  · intro h hmem
    obtain ⟨m, hm, rfl⟩ := List.mem_map.mp hmem
    exact bne_iff_ne.mp (h m hm) rfl
  · exact fun h m hm => bne_iff_ne.mpr fun heq => h (heq ▸ List.mem_map_of_mem hm)

theorem Once.lookup_eq_some {names : List String} {found : List (String × α)} (h : Once names found)
    {name : String} {v : α} (hname : name ∈ names) (hmem : (name, v) ∈ found) :
    found.lookup name = some v := by
  obtain ⟨before, after, rfl⟩ := List.append_of_mem hmem
  have hcount := h name hname
  simp only [List.map_append, List.map_cons, List.count_append, List.count_cons_self] at hcount
  have hbefore : name ∉ before.map (·.1) := List.count_eq_zero.mp (by omega)
  rw [List.lookup_append, lookup_eq_none.mpr hbefore, List.lookup_cons_self, Option.none_or]

theorem place_lookups {names : List String} (hnodup : names.Nodup) (found : List (String × α))
    (m : String × α) :
    place (lookups names found) (names.idxOf? m.1, m.2) =
      if m.1 ∈ names ∧ m.1 ∈ found.map (·.1) then none
      else some (lookups names (found ++ [m])) := by
  cases hindex : names.idxOf? m.1 with
  | none =>
    have hname : m.1 ∉ names := List.idxOf?_eq_none_iff.mp hindex
    rw [if_neg fun h => hname h.1, place]
    refine congrArg some (List.map_congr_left fun name hmem => ?_)
    have hne : name ≠ m.1 := fun heq => hname (heq ▸ hmem)
    rw [lookup_append_singleton, if_neg hne, Option.or_none]
  | some i =>
    obtain ⟨hlt, hi, -⟩ := List.idxOf?_eq_some_iff.mp hindex
    have hname : m.1 ∈ names := hi ▸ List.getElem_mem hlt
    have hslot : (lookups names found)[i]? = some (found.lookup m.1) := by
      rw [lookups, List.getElem?_map, List.getElem?_eq_getElem hlt, hi]
      rfl
    simp only [place, hslot]
    cases hlookup : found.lookup m.1 with
    | some v =>
      have hfound : m.1 ∈ found.map (·.1) := by
        by_contra hnot
        rw [lookup_eq_none.mpr hnot] at hlookup
        cases hlookup
      rw [if_pos ⟨hname, hfound⟩]
    | none =>
      rw [if_neg fun h => lookup_eq_none.mp hlookup h.2]
      refine congrArg some (List.ext_getElem (by simp [lookups]) fun j hj hj' => ?_)
      have hlt' : j < names.length := by simpa [lookups] using hj'
      simp only [lookups, List.getElem_set, List.getElem_map, lookup_append_singleton]
      by_cases hij : i = j
      · subst hij
        rw [if_pos rfl, hi, hlookup, if_pos rfl, Option.none_or]
      · have hne : names[j] ≠ m.1 := fun heq =>
          hij ((List.Nodup.getElem_inj_iff hnodup).mp (hi.trans heq.symm))
        rw [if_neg hij, if_neg hne, Option.or_none]

/-- The slots are those that the names of the members tell, in any order of the members. -/
theorem ofMembers?_lookups {names : List String} (hnodup : names.Nodup)
    (found : List (String × α)) :
    ofMembers? names.length (found.map fun m => (names.idxOf? m.1, m.2)) =
      if Once names found then some (lookups names found) else none := by
  unfold ofMembers?
  induction found using List.reverseRecOn with
  | nil =>
    have hempty : lookups names ([] : List (String × α)) = List.replicate names.length none :=
      List.map_const'
    have honce : Once names ([] : List (String × α)) := fun name _ => Nat.zero_le 1
    rw [if_pos honce, hempty]
    rfl
  | append_singleton found m ih =>
    rw [List.map_append, List.foldlM_append, ih]
    by_cases honce : Once names found
    · rw [if_pos honce, List.map_singleton]
      have hplace := place_lookups hnodup found m
      by_cases hagain : m.1 ∈ names ∧ m.1 ∈ found.map (·.1)
      · rw [if_neg fun h => (once_append.mp h).2 hagain]
        rw [if_pos hagain] at hplace
        simp [hplace]
      · rw [if_pos (once_append.mpr ⟨honce, hagain⟩)]
        rw [if_neg hagain] at hplace
        simp [hplace]
    · rw [if_neg honce, if_neg fun h => honce (once_append.mp h).1]
      rfl

end Form

namespace Json

def named? (m : Bytes × Json) : Option (String × Json) := (stringText? m.1).map (·, m.2)

theorem fields?_object {names : List String} (hnodup : names.Nodup) (least : Nat)
    (members : List (Bytes × Json)) :
    fields? names least (object members) = (members.mapM named?).bind fun found =>
      if Form.Once names found then some (Form.lookups names found) else none := by
  have hmember (m : Bytes × Json) :
      member? names m = (named? m).map fun m => (names.idxOf? m.1, m.2) := by
    rw [member?, named?]
    cases stringText? m.1 <;> rfl
  have hmembers : members.mapM (member? names) =
      (members.mapM named?).map (List.map fun m => (names.idxOf? m.1, m.2)) := by
    induction members with
    | nil => rfl
    | cons m members ih =>
      rw [List.mapM_cons, List.mapM_cons, ih, hmember]
      cases named? m with
      | none => rfl
      | some found => cases members.mapM named? <;> rfl
  rw [fields?, hmembers]
  cases members.mapM named? with
  | none => rfl
  | some found => exact Form.ofMembers?_lookups hnodup found

theorem fields?_record {names : List String} (hnodup : names.Nodup) (least : Nat)
    (members : List (String × Json)) :
    fields? names least (record members) =
      if Form.Once names members then some (Form.lookups names members) else none := by
  have hmembers : (members.map fun m => (escape m.1, m.2)).mapM named? = some members :=
    mapM_written fun m _ => by rw [named?, stringText?_escape]; rfl
  rw [record, fields?_object hnodup, hmembers]
  rfl

end Json

end TraceIndex
