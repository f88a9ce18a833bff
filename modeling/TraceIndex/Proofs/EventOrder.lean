import Mathlib.Data.List.Basic
import TraceIndex.Span.Normal

namespace TraceIndex.Span

/-- The same events in ascending order of time, and those of one time in the order that they had. -/
structure InOrder (events sorted : List Event) : Prop where
  perm : sorted.Perm events
  ascending : sorted.Pairwise fun a b => a.time ≤ b.time
  stable : ∀ t, sorted.filter (·.time = t) = events.filter (·.time = t)

theorem byTime_perm (events : List Event) : (byTime events).Perm events :=
  List.mergeSort_perm _ _

theorem time_le_trans (a b c : Event) (hab : decide (a.time ≤ b.time))
    (hbc : decide (b.time ≤ c.time)) : decide (a.time ≤ c.time) := by
  rw [decide_eq_true_eq] at hab hbc ⊢
  exact Int64.le_trans hab hbc

theorem time_le_total (a b : Event) : decide (a.time ≤ b.time) || decide (b.time ≤ a.time) := by
  simpa using Int64.le_total a.time b.time

theorem byTime_ascending (events : List Event) :
    (byTime events).Pairwise fun a b => a.time ≤ b.time := by
  have hsorted := List.pairwise_mergeSort time_le_trans time_le_total events
  simpa only [byTime, decide_eq_true_eq] using hsorted

theorem byTime_byTime (events : List Event) : byTime (byTime events) = byTime events := by
  apply List.mergeSort_of_pairwise
  simpa only [decide_eq_true_eq] using byTime_ascending events

theorem normalize_normalize (s : Span) : s.normalize.normalize = s.normalize := by
  have horElse : ∀ {β : Type} (a b : Option β), ((a <|> b) <|> b) = (a <|> b) := by
    intro β a b
    cases a <;> cases b <;> rfl
  simp only [normalize, byTime_byTime, horElse]

/-- The events of one time are in order already, so sorting does not move them past each other. -/
theorem filter_byTime (events : List Event) (t : Int64) :
    (byTime events).filter (·.time = t) = events.filter (·.time = t) := by
  have htime : ∀ e ∈ events.filter (·.time = t), e.time = t := by
    intro e he
    exact of_decide_eq_true (List.mem_filter.mp he).2
  have hsame : (events.filter (·.time = t)).Pairwise fun a b => decide (a.time ≤ b.time) := by
    apply List.pairwise_of_forall_mem_list
    intro a ha b hb
    rw [htime a ha, htime b hb]
    exact decide_eq_true (Int64.le_refl t)
  have hsub := List.sublist_mergeSort time_le_trans time_le_total hsame List.filter_sublist
  have hfilter := hsub.filter (·.time = t)
  simp only [List.filter_filter, Bool.and_self] at hfilter
  exact (hfilter.eq_of_length ((byTime_perm events).filter _).length_eq.symm).symm

theorem inOrder_byTime (events : List Event) : InOrder events (byTime events) where
  perm := byTime_perm events
  ascending := byTime_ascending events
  stable := filter_byTime events

theorem head_le {a b : Event} {m : List Event} (hm : (b :: m).Pairwise fun a b => a.time ≤ b.time)
    (ha : a ∈ b :: m) : b.time ≤ a.time := by
  obtain rfl | ha := List.mem_cons.mp ha
  · exact Int64.le_refl _
  · exact (List.pairwise_cons.mp hm).1 a ha

theorem mem_iff_of_filters {l m : List Event}
    (h : ∀ t, l.filter (·.time = t) = m.filter (·.time = t)) (e : Event) : e ∈ l ↔ e ∈ m := by
  have hfilter := congrArg (e ∈ ·) (h e.time)
  simpa using hfilter

/-- Ascending lists that hold the same events of each time in the same order are the same list. -/
theorem eq_of_ascending {l m : List Event} (hl : l.Pairwise fun a b => a.time ≤ b.time)
    (hm : m.Pairwise fun a b => a.time ≤ b.time)
    (h : ∀ t, l.filter (·.time = t) = m.filter (·.time = t)) : l = m := by
  have hmem := mem_iff_of_filters h
  induction l generalizing m with
  | nil =>
    apply Eq.symm
    apply List.eq_nil_iff_forall_not_mem.mpr
    intro e he
    exact List.not_mem_nil ((hmem e).mpr he)
  | cons a l ih =>
    cases m with
    | nil => exact absurd ((hmem a).mp List.mem_cons_self) List.not_mem_nil
    | cons b m =>
      have hab := head_le hl ((hmem b).mpr List.mem_cons_self)
      have hba := head_le hm ((hmem a).mp List.mem_cons_self)
      have htime := Int64.le_antisymm hab hba
      obtain ⟨rfl, -⟩ : a = b ∧ _ := by simpa [htime] using h b.time
      have hrest : ∀ t, l.filter (·.time = t) = m.filter (·.time = t) := by
        intro t
        by_cases hat : a.time = t <;> simpa [hat] using h t
      rw [ih (List.pairwise_cons.mp hl).2 (List.pairwise_cons.mp hm).2 hrest
        (mem_iff_of_filters hrest)]

theorem InOrder.eq {events l m : List Event} (hl : InOrder events l) (hm : InOrder events m) :
    l = m := by
  apply eq_of_ascending hl.ascending hm.ascending
  intro t
  rw [hl.stable, hm.stable]

def times (events : List Event) : List Int := events.map (·.time.toInt)

theorem min?_perm {l m : List Int} (h : l.Perm m) : l.min? = m.min? := by
  ext n
  simp only [List.min?_eq_some_iff, h.mem_iff]

theorem max?_perm {l m : List Int} (h : l.Perm m) : l.max? = m.max? := by
  ext n
  simp only [List.max?_eq_some_iff, h.mem_iff]

theorem head_times {l : List Event} (h : l.Pairwise fun a b => a.time ≤ b.time) :
    (times l).head? = (times l).min? := by
  apply Eq.symm
  apply List.min?_eq_head?
  apply List.pairwise_map.mpr
  apply h.imp
  intro a b hab
  exact Int.min_eq_left (Int64.le_iff_toInt_le.mp hab)

theorem last_times {l : List Event} (h : l.Pairwise fun a b => a.time ≤ b.time) :
    (times l).getLast? = (times l).max? := by
  obtain rfl | ⟨l, e, rfl⟩ := l.eq_nil_or_concat'
  · rfl
  · have hle : ∀ n ∈ times (l ++ [e]), n ≤ e.time.toInt := by
      intro n hn
      obtain ⟨a, ha, rfl⟩ := List.mem_map.mp hn
      obtain ha | ha := List.mem_append.mp ha
      · have hae := (List.pairwise_append.mp h).2.2 a ha e List.mem_cons_self
        exact Int64.le_iff_toInt_le.mp hae
      · obtain rfl := List.mem_singleton.mp ha
        exact Int.le_refl _
    have hmem : e.time.toInt ∈ times (l ++ [e]) := by
      simp [times]
    rw [List.max?_eq_some_iff.mpr ⟨hmem, hle⟩, times, List.map_append, List.map_singleton,
      List.getLast?_concat]

namespace InOrder

variable {events sorted : List Event}

theorem times_perm (h : InOrder events sorted) : (times sorted).Perm (times events) :=
  h.perm.map _

theorem first (h : InOrder events sorted) :
    sorted.head?.map (·.time.toInt) = (times events).min? := by
  rw [← min?_perm h.times_perm, ← head_times h.ascending, times, List.head?_map]

theorem last (h : InOrder events sorted) :
    sorted.getLast?.map (·.time.toInt) = (times events).max? := by
  rw [← max?_perm h.times_perm, ← last_times h.ascending, times, List.getLast?_map]

theorem earliest (h : InOrder events sorted) (p : Event → Bool) :
    (sorted.find? p).map (·.time.toInt) = (times (events.filter p)).min? := by
  have hperm : (times (sorted.filter p)).Perm (times (events.filter p)) := (h.perm.filter p).map _
  rw [← min?_perm hperm, ← head_times (h.ascending.filter p), times, List.head?_map,
    List.head?_filter]

end InOrder

end TraceIndex.Span
