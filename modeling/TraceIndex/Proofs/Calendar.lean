import Mathlib.Algebra.Order.BigOperators.Group.List
import Mathlib.Algebra.Order.Group.Nat
import Mathlib.Algebra.Order.Ring.Int
import TraceIndex.Proofs.ByteOrder
import TraceIndex.Time.Calendar

namespace TraceIndex.Day

theorem isLeap_iff (year : Int) :
    isLeap year = true ↔ year % 4 = 0 ∧ (year % 100 ≠ 0 ∨ year % 400 = 0) := by
  simp [isLeap]

def lengths (year : Int) : List Nat := monthLengths (isLeap year)

def yearLength (year : Int) : Nat := (lengths year).sum

theorem length_lengths (year : Int) : (lengths year).length = 12 := rfl

theorem yearLength_eq (year : Int) : yearLength year = if isLeap year then 366 else 365 := by
  rw [yearLength, lengths]
  cases isLeap year <;> rfl

/-- How many days lie between the first of January of the year one and that of the given year. -/
def before (year : Int) : Int :=
  365 * (year - 1) + (year - 1) / 4 - (year - 1) / 100 + (year - 1) / 400

theorem before_succ (year : Int) : before (year + 1) = before year + yearLength year := by
  rw [yearLength_eq, before, before]
  split
  · rename_i h
    have := (isLeap_iff year).mp h
    omega
  · rename_i h
    have := (isLeap_iff year).not.mp h
    omega

theorem before_mono {year later : Int} (h : year ≤ later) : before year ≤ before later := by
  refine monotone_int_of_le_succ (fun year => ?_) h
  have := before_succ year
  omega

theorem isLeap_cycle (cycle year : Int) : isLeap (cycle * 400 + year) = isLeap year := by
  rw [Bool.eq_iff_iff, isLeap_iff, isLeap_iff]
  omega

theorem before_cycle (cycle year : Int) :
    before (cycle * 400 + year) = cycle * 146097 + before year := by
  rw [before, before]
  omega

/-- A cycle is four centuries, a century 25 times four years. Only the last of four years has a day
more, unless it is the last of the first three centuries. -/
theorem inCycle_parts {n : Nat} (h : n < 146097) :
    ∃ c f y d, inCycle n = (c * 100 + f * 4 + y, d) ∧ n = c * 36524 + f * 1461 + y * 365 + d ∧
      c < 4 ∧ f < 25 ∧ y < 4 ∧ d < 366 ∧ (d = 365 → y = 3 ∧ (f = 24 → c = 3)) := by
  refine ⟨_, _, _, _, rfl, ?_⟩
  omega

theorem inCycle_spec {n : Nat} (h : n < 146097) :
    before ((inCycle n).1 + 1) + (inCycle n).2 = n ∧
      (inCycle n).2 < yearLength ((inCycle n).1 + 1) := by
  obtain ⟨c, f, y, d, heq, hn, hc, hf, hy, hd, hlast⟩ := inCycle_parts h
  rw [heq]
  generalize hyear : c * 100 + f * 4 + y = year
  -- the counts of leap years, as numbers without a division
  have hfourth : year / 4 = c * 25 + f := by omega
  have hcentury : year / 100 = c := by omega
  have hcycle : year / 400 = 0 := by omega
  constructor
  · show before (year + 1) + d = n
    rw [before, Int.add_sub_cancel]
    omega
  · show d < yearLength (year + 1)
    rw [yearLength_eq]
    split
    · exact hd
    · rename_i hcommon
      have := (isLeap_iff _).not.mp hcommon
      omega

/-- A day lies within the month that it is told to lie in, so many months after the first. -/
theorem inMonth_spec (month : Nat) (ls : List Nat) {n : Nat} (h : n < ls.sum) :
    ∃ k d, inMonth month ls n = (month + k, d + 1) ∧ (ls.take k).sum + d = n ∧
      ∃ l, ls[k]? = some l ∧ d < l := by
  induction ls generalizing month n with
  | nil => cases h
  | cons l ls ih =>
    rw [inMonth]
    split
    · rename_i hl
      exact ⟨0, n, rfl, by simp, l, rfl, hl⟩
    · rename_i hl
      rw [List.sum_cons] at h
      obtain ⟨k, d, heq, hsum, hd⟩ := ih (month + 1) (show n - l < ls.sum by omega)
      refine ⟨k + 1, d, ?_, ?_, hd⟩
      · rw [heq, Nat.add_assoc, Nat.add_comm 1]
      · rw [List.take_succ_cons, List.sum_cons]
        omega

def ofYear (d : Day) : Nat := ((lengths d.year).take (d.month - 1)).sum + (d.day - 1)

def count (d : Day) : Int := before d.year + d.ofYear

def Valid (d : Day) : Prop :=
  0 < d.month ∧ 0 < d.day ∧ ∃ l, (lengths d.year)[d.month - 1]? = some l ∧ d.day ≤ l

theorem ofCount_spec (n : Int) : (ofCount n).Valid ∧ (ofCount n).count = n := by
  have hn : (n % 146097).toNat < 146097 := by omega
  obtain ⟨hbefore, hyear⟩ := inCycle_spec hn
  generalize hcycle : inCycle (n % 146097).toNat = p at hbefore hyear
  obtain ⟨y, d⟩ := p
  have hlengths : lengths (n / 146097 * 400 + (y + 1)) = lengths (y + 1) :=
    congrArg monthLengths (isLeap_cycle ..)
  obtain ⟨k, day, hmonth, hsum, l, hl, hday⟩ := inMonth_spec 1 (lengths (y + 1)) hyear
  have heq : ofCount n = ⟨n / 146097 * 400 + (y + 1), 1 + k, day + 1⟩ := by
    rw [← hlengths, lengths] at hmonth
    rw [ofCount, hcycle]
    simp only [Int.add_assoc]
    rw [hmonth]
  rw [heq]
  refine ⟨⟨?_, ?_, l, ?_, hday⟩, ?_⟩
  · exact Nat.add_pos_left Nat.one_pos k
  · exact day.succ_pos
  · rwa [hlengths, Nat.add_sub_cancel_left]
  · rw [count, ofYear, before_cycle, hlengths]
    simp only [Nat.add_sub_cancel, Nat.add_sub_cancel_left]
    rw [hsum]
    simp only at hbefore
    omega

theorem valid_ofCount (n : Int) : (ofCount n).Valid := (ofCount_spec n).1

theorem count_ofCount (n : Int) : (ofCount n).count = n := (ofCount_spec n).2

variable {d e : Day}

theorem month_le (h : d.Valid) : d.month ≤ 12 := by
  obtain ⟨hmonth, -, l, hl, -⟩ := h
  obtain ⟨hlt, -⟩ := List.getElem?_eq_some_iff.mp hl
  rw [length_lengths] at hlt
  omega

theorem le_of_mem_lengths {year : Int} {l : Nat} (h : l ∈ lengths year) : l ≤ 31 := by
  have hall : ∀ leap, ∀ l ∈ monthLengths leap, l ≤ 31 := by decide
  exact hall _ l h

theorem day_le (h : d.Valid) : d.day ≤ 31 := by
  obtain ⟨-, -, l, hl, hday⟩ := h
  exact hday.trans (le_of_mem_lengths (List.mem_of_getElem? hl))

theorem ofYear_lt_take (h : d.Valid) : d.ofYear < ((lengths d.year).take d.month).sum := by
  obtain ⟨hmonth, hday, l, hl, hle⟩ := h
  obtain ⟨hlt, hget⟩ := List.getElem?_eq_some_iff.mp hl
  have hstep := List.sum_take_succ (lengths d.year) (d.month - 1) hlt
  rw [Nat.sub_add_cancel hmonth, hget] at hstep
  rw [ofYear]
  omega

theorem ofYear_lt (h : d.Valid) : d.ofYear < yearLength d.year := by
  refine (ofYear_lt_take h).trans_le ?_
  exact (List.take_sublist _ _).sum_le_sum fun _ _ => Nat.zero_le _

theorem count_lt_of_year (hd : d.Valid) (h : d.year < e.year) : d.count < e.count := by
  have hlt := ofYear_lt hd
  have hnext := before_succ d.year
  have hmono := before_mono (show d.year + 1 ≤ e.year from h)
  rw [count, count]
  omega

theorem count_lt_of_month (hd : d.Valid) (hyear : d.year = e.year) (h : d.month < e.month) :
    d.count < e.count := by
  have hlt := ofYear_lt_take hd
  have hmono : ((lengths d.year).take d.month).sum ≤ ((lengths d.year).take (e.month - 1)).sum :=
    List.monotone_sum_take _ (by omega)
  rw [count, count, ← hyear]
  have hofYear : e.ofYear = ((lengths d.year).take (e.month - 1)).sum + (e.day - 1) := by
    rw [ofYear, hyear]
  omega

/-- Days count on in the order of years, then months, then days. -/
theorem compare_count (hd : d.Valid) (he : e.Valid) :
    compare d.count e.count =
      (compare d.year e.year).then ((compare d.month e.month).then (compare d.day e.day)) := by
  refine compare_eq_then (count_lt_of_year hd) (count_lt_of_year he) fun hyear => ?_
  refine compare_eq_then (count_lt_of_month hd hyear) (count_lt_of_month he hyear.symm)
    fun hmonth => ?_
  have hday := hd.2.1
  have hday' := he.2.1
  have hdiff : d.count = e.count + d.day - e.day := by
    rw [count, count, ofYear, ofYear, hyear, hmonth]
    omega
  rw [hdiff, Int.compare_eq_ite_lt, Nat.compare_eq_ite_lt]
  split_ifs <;> first | rfl | omega

theorem year_le_iff (year n : Int) : year ≤ (ofCount n).year ↔ before year ≤ n := by
  have hcount : before (ofCount n).year + (ofCount n).ofYear = n := count_ofCount n
  constructor
  · intro h
    have hmono := before_mono h
    omega
  · intro h
    by_contra hlt
    have hmono := before_mono (show (ofCount n).year + 1 ≤ year by omega)
    have hnext := before_succ (ofCount n).year
    have hyear := ofYear_lt (valid_ofCount n)
    omega

end TraceIndex.Day
