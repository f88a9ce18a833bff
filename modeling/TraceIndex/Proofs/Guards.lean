import Mathlib.Data.List.Induction
import TraceIndex.Proofs.Marks

namespace TraceIndex

inductive GuardFate
  | held
  | kept
  | dropped (issued : Nat)
  deriving DecidableEq, Repr

structure Guard where
  key : String
  window : Int
  fate : GuardFate
  deriving DecidableEq, Repr

/-- Marks, and the guards that were issued for them, in order. -/
structure Guarded where
  marks : Marks
  guards : List Guard

inductive GuardCall
  | guard (now : Clock) (key : String)
  | keep (place : Nat)
  | drop (place : Nat)
  | contains (now : Clock) (key : String)
  | count (now : Clock)
  deriving DecidableEq, Repr

def GuardCall.now? : GuardCall → Option Clock
  | guard now _ | contains now _ | count now => some now
  | keep _ | drop _ => none

namespace Guarded

def fresh (millis : UInt64) (start : Clock) : Guarded := ⟨.fresh millis start, []⟩

def tryGuard (c : Guarded) (now : Clock) (key : String) : Bool × Guarded :=
  let (isNew, marks) := c.marks.mark now key
  (isNew, ⟨marks, if isNew then c.guards ++ [⟨key, marks.window, .held⟩] else c.guards⟩)

def held? (c : Guarded) (i : Nat) : Option Guard := c.guards[i]?.filter (·.fate = .held)

def settle (c : Guarded) (i : Nat) (g : Guard) (fate : GuardFate) : List Guard :=
  c.guards.set i { g with fate }

def keep (c : Guarded) (i : Nat) : Guarded :=
  match c.held? i with
  | none => c
  | some g => { c with guards := c.settle i g .kept }

def drop (c : Guarded) (i : Nat) : Guarded :=
  match c.held? i with
  | none => c
  | some g => ⟨c.marks.revert g.key, c.settle i g (.dropped c.guards.length)⟩

def look (c : Guarded) (now : Clock) : Guarded := { c with marks := c.marks.refresh now }

def call (c : Guarded) : GuardCall → Guarded
  | .guard now key => (c.tryGuard now key).2
  | .keep i => c.keep i
  | .drop i => c.drop i
  | .contains now key => { c with marks := (c.marks.contains now key).2 }
  | .count now => { c with marks := (c.marks.count now).2 }

def run (c : Guarded) (calls : List GuardCall) : Guarded := calls.foldl call c

/-- The clock never moves back, from the reading that the marks began with. -/
def Steady (start : Clock) (calls : List GuardCall) : Prop :=
  (start :: calls.filterMap GuardCall.now?).Pairwise (·.millis ≤ ·.millis)

instance (start : Clock) (calls : List GuardCall) : Decidable (Steady start calls) :=
  inferInstanceAs (Decidable (List.Pairwise _ _))

variable (guards : List Guard) (key : String) (window : Int)

/-- A guard of the key was dropped when `n` guards had been issued. -/
def Drops (n : Nat) : Prop := ∃ g ∈ guards, g.key = key ∧ g.fate = .dropped n

/-- A guard of the key was issued in the window, and none of the key was dropped since, of whatever
window. -/
def Holds : Prop :=
  ∃ i g, guards[i]? = some g ∧ g.key = key ∧ g.window = window ∧ ∀ n, Drops guards key n → n ≤ i

/-- A guard of an earlier window was dropped when one of this window had been issued for the key,
and before the guard at `j` was. -/
def DropsStale (j : Nat) : Prop :=
  ∃ g ∈ guards, g.key = key ∧ g.window < window ∧ ∃ n ≤ j, g.fate = .dropped n ∧
    ∃ i < n, ∃ h, guards[i]? = some h ∧ h.key = key ∧ h.window = window

/-- What holds of marks and guards after every history in which the clock never moves back. -/
structure Consistent (c : Guarded) : Prop where
  inForce : ∀ key, key ∈ c.marks.marked ∧ key ∉ c.marks.reverts ↔
    Holds c.guards key c.marks.window
  dropped : ∀ (i : Nat) (g : Guard) n, c.guards[i]? = some g → g.fate = .dropped n →
    i < n ∧ n ≤ c.guards.length
  current : ∀ (i : Nat) (g : Guard), c.guards[i]? = some g → g.window ≤ c.marks.window
  sorted : ∀ (i j : Nat) (g h : Guard), i < j → c.guards[i]? = some g → c.guards[j]? = some h →
    g.window ≤ h.window
  reissued : ∀ (i j : Nat) (g h : Guard), i < j → c.guards[i]? = some g → c.guards[j]? = some h →
    g.key = h.key → g.window = h.window → ∃ n, Drops c.guards h.key n ∧ i < n ∧ n ≤ j

theorem consistent_fresh (millis : UInt64) (start : Clock) : (fresh millis start).Consistent where
  inForce key := by simp [fresh, Marks.fresh, Holds]
  dropped i g n hg := by simp [fresh] at hg
  current i g hg := by simp [fresh] at hg
  sorted i j g h _ hg := by simp [fresh] at hg
  reissued i j g h _ hg := by simp [fresh] at hg

variable {c : Guarded} {now : Clock}

theorem Consistent.drops_le (hc : c.Consistent) {key : String} {n : Nat}
    (h : Drops c.guards key n) : n ≤ c.guards.length := by
  obtain ⟨g, hg, -, hn⟩ := h
  obtain ⟨i, hi⟩ := List.mem_iff_getElem?.mp hg
  exact (hc.dropped i g n hi hn).2

theorem Consistent.look (hc : c.Consistent)
    (hw : c.marks.window ≤ Marks.windowAt c.marks.length now) : (c.look now).Consistent where
  inForce key := by
    have hforce := Marks.mem_refresh_marked c.marks now key
    simp only [Guarded.look, Marks.refresh_reverts, Marks.refresh_window, hforce,
      List.not_mem_nil, not_false_eq_true, and_true]
    by_cases h : Marks.windowAt c.marks.length now = c.marks.window
    · rw [h, ← hc.inForce key]
      exact and_iff_right rfl
    · refine ⟨fun hk => absurd hk.1 h, ?_⟩
      rintro ⟨i, g, hi, -, hwin, -⟩
      have := hc.current i g hi
      omega
  dropped := hc.dropped
  current i g hi := Int.le_trans (hc.current i g hi) hw
  sorted := hc.sorted
  reissued := hc.reissued

def issue (c : Guarded) (key : String) : Guarded :=
  ⟨{ c.marks with marked := key :: c.marks.marked }, c.guards ++ [⟨key, c.marks.window, .held⟩]⟩

theorem getElem?_issue {i : Nat} {g : Guard} (h : (c.issue key).guards[i]? = some g) :
    c.guards[i]? = some g ∨ i = c.guards.length ∧ g = ⟨key, c.marks.window, .held⟩ := by
  simp only [issue, List.getElem?_append] at h
  split at h
  · exact .inl h
  · rw [List.getElem?_singleton] at h
    split at h
    · exact .inr ⟨by omega, by simpa using h.symm⟩
    · simp at h

theorem getElem?_issue_of {i : Nat} {g : Guard} (h : c.guards[i]? = some g) :
    (c.issue key).guards[i]? = some g := by
  have hi : i < c.guards.length := (List.getElem?_eq_some_iff.mp h).1
  simpa [issue, List.getElem?_append_left hi] using h

theorem getElem?_of_issue {i : Nat} {g : Guard} (h : (c.issue key).guards[i]? = some g)
    (hi : i < c.guards.length) : c.guards[i]? = some g := by
  obtain h | ⟨rfl, -⟩ := getElem?_issue key h
  · exact h
  · exact absurd hi (Nat.lt_irrefl _)

theorem drops_issue {other : String} {n : Nat} :
    Drops (c.issue key).guards other n ↔ Drops c.guards other n := by
  simp [Drops, issue, or_and_right, exists_or]

theorem lt_of_getElem? {i : Nat} {g : Guard} (h : c.guards[i]? = some g) : i < c.guards.length :=
  (List.getElem?_eq_some_iff.mp h).1

theorem Consistent.issue (hc : c.Consistent) (hr : c.marks.reverts = [])
    (hk : key ∉ c.marks.marked) : (c.issue key).Consistent where
  inForce other := by
    have hold := hc.inForce other
    rw [hr] at hold
    change other ∈ key :: c.marks.marked ∧ other ∉ c.marks.reverts ↔ _
    rw [hr, List.mem_cons]
    constructor
    · rintro ⟨rfl | ho, -⟩
      · refine ⟨c.guards.length, ⟨other, c.marks.window, .held⟩, by simp [Guarded.issue], rfl, rfl,
          fun n hn => ?_⟩
        exact hc.drops_le ((drops_issue other).mp hn)
      · obtain ⟨i, g, hi, hg, hw, hn⟩ := hold.mp ⟨ho, by simp⟩
        exact ⟨i, g, getElem?_issue_of key hi, hg, hw, fun n h => hn n ((drops_issue key).mp h)⟩
    · rintro ⟨i, g, hi, hg, hw, hn⟩
      refine ⟨?_, by simp⟩
      obtain hi | ⟨-, rfl⟩ := getElem?_issue key hi
      · exact .inr (hold.mpr ⟨i, g, hi, hg, hw, fun n h => hn n ((drops_issue key).mpr h)⟩).1
      · exact .inl hg.symm
  dropped i g n hi hn := by
    obtain hi | ⟨-, rfl⟩ := getElem?_issue key hi
    · obtain ⟨hin, hle⟩ := hc.dropped i g n hi hn
      exact ⟨hin, by simp only [Guarded.issue, List.length_append]; omega⟩
    · cases hn
  current i g hi := by
    obtain hi | ⟨-, rfl⟩ := getElem?_issue key hi
    · exact hc.current i g hi
    · exact Int.le_refl _
  sorted i j g h hij hi hj := by
    obtain hj | ⟨rfl, rfl⟩ := getElem?_issue key hj
    · have hlt := lt_of_getElem? hj
      exact hc.sorted i j g h hij (getElem?_of_issue key hi (by omega)) hj
    · exact hc.current i g (getElem?_of_issue key hi hij)
  reissued i j g h hij hi hj hkey hwin := by
    obtain hj | ⟨rfl, rfl⟩ := getElem?_issue key hj
    · have hlt := lt_of_getElem? hj
      have hi' := getElem?_of_issue key hi (by omega)
      obtain ⟨n, hn, hlt, hle⟩ := hc.reissued i j g h hij hi' hj hkey hwin
      exact ⟨n, (drops_issue key).mpr hn, hlt, hle⟩
    · have hi' := getElem?_of_issue key hi hij
      -- The key was not in force, so a guard of it was dropped since this one was issued.
      by_contra hnone
      apply hk
      refine ((hc.inForce key).mpr ⟨i, g, hi', hkey, hwin, ?_⟩).1
      intro n hn
      by_contra hlt
      exact hnone ⟨n, (drops_issue key).mpr hn, by omega, hc.drops_le hn⟩

theorem held?_eq_some {i : Nat} {g : Guard} :
    c.held? i = some g ↔ c.guards[i]? = some g ∧ g.fate = .held := by
  simp [held?, Option.filter_eq_some_iff]

section Settle

variable {i : Nat} {g : Guard} {fate : GuardFate}

theorem getElem?_settle (hi : c.guards[i]? = some g) (k : Nat) :
    (c.settle i g fate)[k]? = if k = i then some { g with fate } else c.guards[k]? := by
  have hlt := lt_of_getElem? hi
  by_cases hk : k = i
  · subst k
    simp [settle, hlt]
  · simp [settle, hk, Ne.symm hk]

theorem getElem?_of_settle (hi : c.guards[i]? = some g) {k : Nat} {h : Guard}
    (hk : (c.settle i g fate)[k]? = some h) :
    ∃ h₀, c.guards[k]? = some h₀ ∧ h₀.key = h.key ∧ h₀.window = h.window := by
  rw [getElem?_settle hi] at hk
  split at hk
  · subst k
    cases hk
    exact ⟨g, hi, rfl, rfl⟩
  · exact ⟨h, hk, rfl, rfl⟩

theorem getElem?_settle_of (hi : c.guards[i]? = some g) {k : Nat} {h : Guard}
    (hk : c.guards[k]? = some h) :
    ∃ h', (c.settle i g fate)[k]? = some h' ∧ h'.key = h.key ∧ h'.window = h.window := by
  rw [getElem?_settle hi]
  split
  · subst k
    rw [hi] at hk
    cases hk
    exact ⟨_, rfl, rfl, rfl⟩
  · exact ⟨h, hk, rfl, rfl⟩

theorem drops_settle (hi : c.held? i = some g) {n : Nat} :
    Drops (c.settle i g fate) key n ↔
      Drops c.guards key n ∨ g.key = key ∧ fate = .dropped n := by
  obtain ⟨hg, hheld⟩ := held?_eq_some.mp hi
  constructor
  · rintro ⟨h, hh, hkey, hn⟩
    obtain ⟨k, hk⟩ := List.mem_iff_getElem?.mp hh
    rw [getElem?_settle hg] at hk
    split at hk
    · cases hk
      exact .inr ⟨hkey, hn⟩
    · exact .inl ⟨h, List.mem_of_getElem? hk, hkey, hn⟩
  · rintro (⟨h, hh, hkey, hn⟩ | ⟨hkey, hn⟩)
    · obtain ⟨k, hk⟩ := List.mem_iff_getElem?.mp hh
      have hne : k ≠ i := by
        rintro rfl
        rw [hg] at hk
        cases hk
        rw [hheld] at hn
        cases hn
      have hk' : (c.settle i g fate)[k]? = some h := by rw [getElem?_settle hg, if_neg hne, hk]
      exact ⟨h, List.mem_of_getElem? hk', hkey, hn⟩
    · have hi' : (c.settle i g fate)[i]? = some { g with fate } := by
        rw [getElem?_settle hg, if_pos rfl]
      exact ⟨_, List.mem_of_getElem? hi', hkey, hn⟩

theorem Consistent.settle (hc : c.Consistent) (hi : c.held? i = some g) {marks : Marks}
    (hw : marks.window = c.marks.window) (hfate : ∀ n, fate = .dropped n → n = c.guards.length)
    (hforce : ∀ key, key ∈ marks.marked ∧ key ∉ marks.reverts ↔
      Holds (c.settle i g fate) key marks.window) : Consistent ⟨marks, c.settle i g fate⟩ := by
  obtain ⟨hg, hheld⟩ := held?_eq_some.mp hi
  have hlen : (c.settle i g fate).length = c.guards.length := by simp [Guarded.settle]
  refine ⟨hforce, ?_, ?_, ?_, ?_⟩
  · intro k h n hk hn
    simp only [hlen]
    simp only [getElem?_settle hg] at hk
    split at hk
    · cases hk
      have hlt := lt_of_getElem? hg
      have hlast := hfate n hn
      constructor <;> omega
    · exact hc.dropped k h n hk hn
  · intro k h hk
    obtain ⟨h₀, hk₀, -, hwin⟩ := getElem?_of_settle hg hk
    rw [← hwin, hw]
    exact hc.current k h₀ hk₀
  · intro k l h h' hkl hk hl
    obtain ⟨h₀, hk₀, -, hwin⟩ := getElem?_of_settle hg hk
    obtain ⟨h₁, hl₁, -, hwin'⟩ := getElem?_of_settle hg hl
    rw [← hwin, ← hwin']
    exact hc.sorted k l h₀ h₁ hkl hk₀ hl₁
  · intro k l h h' hkl hk hl hkey hwin
    obtain ⟨h₀, hk₀, hkey₀, hwin₀⟩ := getElem?_of_settle hg hk
    obtain ⟨h₁, hl₁, hkey₁, hwin₁⟩ := getElem?_of_settle hg hl
    obtain ⟨n, hn, hlt, hle⟩ := hc.reissued k l h₀ h₁ hkl hk₀ hl₁ (by rw [hkey₀, hkey₁, hkey])
      (by rw [hwin₀, hwin₁, hwin])
    rw [hkey₁] at hn
    exact ⟨n, (drops_settle h'.key hi).mpr (.inl hn), hlt, hle⟩

theorem holds_settle (hi : c.held? i = some g)
    (hfate : ∀ n, fate = .dropped n → n = c.guards.length) :
    Holds (c.settle i g fate) key window ↔
      Holds c.guards key window ∧ (g.key = key → ∀ n, fate ≠ .dropped n) := by
  have hg := (held?_eq_some.mp hi).1
  constructor
  · rintro ⟨k, h, hk, hkey, hwin, hn⟩
    obtain ⟨h₀, hk₀, hkey₀, hwin₀⟩ := getElem?_of_settle hg hk
    refine ⟨⟨k, h₀, hk₀, hkey₀.trans hkey, hwin₀.trans hwin, ?_⟩, ?_⟩
    · intro n hd
      exact hn n ((drops_settle key hi).mpr (.inl hd))
    · intro hgk n hd
      have hle := hn n ((drops_settle key hi).mpr (.inr ⟨hgk, hd⟩))
      have hlt := lt_of_getElem? hk₀
      have := hfate n hd
      omega
  · rintro ⟨⟨k, h, hk, hkey, hwin, hn⟩, hnot⟩
    obtain ⟨h', hk', hkey', hwin'⟩ := getElem?_settle_of hg hk
    refine ⟨k, h', hk', hkey'.trans hkey, hwin'.trans hwin, ?_⟩
    intro n hd
    obtain hd | ⟨hgk, hd⟩ := (drops_settle key hi).mp hd
    · exact hn n hd
    · exact absurd hd (hnot hgk n)

theorem Consistent.keep (hc : c.Consistent) (i : Nat) : (c.keep i).Consistent := by
  unfold Guarded.keep
  split
  · exact hc
  · rename_i g hi
    have hfate : ∀ n, GuardFate.kept = .dropped n → n = c.guards.length := fun n hn => by cases hn
    apply hc.settle hi rfl hfate
    intro key
    rw [hc.inForce key, holds_settle key _ hi hfate]
    simp

theorem Consistent.drop (hc : c.Consistent) (i : Nat) : (c.drop i).Consistent := by
  unfold Guarded.drop
  split
  · exact hc
  · rename_i g hi
    have hfate : ∀ n, GuardFate.dropped c.guards.length = .dropped n → n = c.guards.length :=
      fun n hn => by cases hn; rfl
    have hwindow : (c.marks.revert g.key).window = c.marks.window := rfl
    apply hc.settle hi hwindow hfate
    intro key
    have hold := hc.inForce key
    have hne : (g.key = key → ∀ n, GuardFate.dropped c.guards.length ≠ .dropped n) ↔
        key ≠ g.key := by
      simp [eq_comm]
    rw [holds_settle key _ hi hfate, hne]
    change key ∈ c.marks.marked ∧ key ∉ c.marks.reverts ++ [g.key] ↔
      Holds c.guards key c.marks.window ∧ key ≠ g.key
    rw [← hold, List.mem_append, List.mem_singleton, not_or, and_assoc]

end Settle

theorem consistent_tryGuard (hc : c.Consistent) (key : String)
    (hw : c.marks.window ≤ Marks.windowAt c.marks.length now) :
    (c.tryGuard now key).2.Consistent := by
  have hl := hc.look hw
  by_cases h : c.marks.InForce now key
  · rw [tryGuard, Marks.mark_eq_of_inForce h]
    exact hl
  · rw [tryGuard, Marks.mark_eq_of_not_inForce h]
    exact hl.issue key rfl h

theorem run_append (calls : List GuardCall) (a : GuardCall) :
    c.run (calls ++ [a]) = (c.run calls).call a := by
  simp [run]

@[simp] theorem call_length (a : GuardCall) : (c.call a).marks.length = c.marks.length := by
  cases a with
  | guard now key => exact Marks.mark_length ..
  | keep i =>
    simp only [call, Guarded.keep]
    split <;> rfl
  | drop i =>
    simp only [call, Guarded.drop]
    split <;> rfl
  | contains now key | count now => rfl

theorem call_window (a : GuardCall) :
    (c.call a).marks.window =
      (a.now?.map (Marks.windowAt c.marks.length)).getD c.marks.window := by
  cases a with
  | guard now key => exact Marks.mark_window ..
  | keep i =>
    simp only [call, Guarded.keep]
    split <;> rfl
  | drop i =>
    simp only [call, Guarded.drop]
    split <;> rfl
  | contains now key | count now => rfl

theorem Consistent.call (hc : c.Consistent) (a : GuardCall)
    (hw : ∀ now ∈ a.now?, c.marks.window ≤ Marks.windowAt c.marks.length now) :
    (c.call a).Consistent := by
  cases a with
  | guard now key => exact consistent_tryGuard hc key (hw now rfl)
  | keep i => exact hc.keep i
  | drop i => exact hc.drop i
  | contains now key | count now => exact hc.look (hw now rfl)

theorem windowAt_mono {length : Nat} (hl : 0 < length) {a b : Clock} (h : a.millis ≤ b.millis) :
    Marks.windowAt length a ≤ Marks.windowAt length b :=
  Int.ediv_le_ediv (by omega) (Int64.le_iff_toInt_le.mp h)

theorem windowLength_pos (millis : UInt64) : 0 < Marks.windowLength millis :=
  (Marks.fresh millis ⟨0⟩).length_pos

theorem Steady.append {start : Clock} {calls : List GuardCall} {a : GuardCall}
    (h : Steady start (calls ++ [a])) :
    Steady start calls ∧
      ∀ t ∈ start :: calls.filterMap GuardCall.now?, ∀ now ∈ a.now?, t.millis ≤ now.millis := by
  unfold Steady at h
  rw [List.filterMap_append, ← List.cons_append, List.pairwise_append] at h
  refine ⟨h.1, fun t ht now hnow => h.2.2 t ht now ?_⟩
  rw [Option.mem_def] at hnow
  simp [hnow]

theorem consistent_run (millis : UInt64) (start : Clock) (calls : List GuardCall)
    (steady : Steady start calls) :
    ((fresh millis start).run calls).Consistent ∧
      ((fresh millis start).run calls).marks.length = Marks.windowLength millis ∧
      ∃ t ∈ start :: calls.filterMap GuardCall.now?,
        ((fresh millis start).run calls).marks.window =
          Marks.windowAt (Marks.windowLength millis) t := by
  induction calls using List.reverseRecOn with
  | nil => exact ⟨consistent_fresh millis start, rfl, start, by simp, rfl⟩
  | append_singleton calls a ih =>
    obtain ⟨before, hle⟩ := steady.append
    obtain ⟨hc, hlen, t, ht, hwin⟩ := ih before
    rw [run_append]
    refine ⟨?_, by rw [call_length, hlen], ?_⟩
    · apply hc.call a
      intro now hnow
      rw [hlen, hwin]
      exact windowAt_mono (windowLength_pos millis) (hle t ht now hnow)
    · rw [call_window, hlen, List.filterMap_append]
      cases hnow : a.now? with
      | none =>
        rw [← List.cons_append]
        exact ⟨t, List.mem_append_left _ ht, hwin⟩
      | some now => exact ⟨now, by simp [hnow], rfl⟩

theorem DropsStale.mono {guards : List Guard} {key : String} {window : Int} {j k : Nat}
    (h : DropsStale guards key window j) (hjk : j ≤ k) : DropsStale guards key window k := by
  obtain ⟨g, hg, hkey, hwin, n, hn, hrest⟩ := h
  exact ⟨g, hg, hkey, hwin, n, Nat.le_trans hn hjk, hrest⟩

/-- A second guard of a key in one window, issued while the first was held or kept, was made
possible by a guard of an earlier window. -/
theorem Consistent.dropsStale (hc : c.Consistent) (j : Nat) :
    ∀ (i : Nat) (g h : Guard), i < j → c.guards[i]? = some g → c.guards[j]? = some h →
      g.key = h.key → g.window = h.window → (∀ n ≤ j, g.fate ≠ .dropped n) →
      DropsStale c.guards h.key h.window j := by
  induction j using Nat.strongRecOn with
  | _ j ih =>
    intro i g h hij hi hj hkey hwin hheld
    obtain ⟨n, ⟨d, hd, hdkey, hdn⟩, hin, hnj⟩ := hc.reissued i j g h hij hi hj hkey hwin
    obtain ⟨k, hk⟩ := List.mem_iff_getElem?.mp hd
    have hkn := (hc.dropped k d n hk hdn).1
    have hdle := hc.sorted k j d h (by omega) hk hj
    obtain hlt | heq := Int.lt_or_eq_of_le hdle
    · exact ⟨d, hd, hdkey, hlt, n, hnj, hdn, i, hin, g, hi, hkey, hwin⟩
    -- The dropped guard is of this window too, so it makes a pair with the first one.
    · obtain hik | hik | hik := Nat.lt_trichotomy i k
      · have hstale := ih k (by omega) i g d hik hi hk (hkey.trans hdkey.symm) (hwin.trans heq.symm)
          fun m hm => hheld m (by omega)
        rw [hdkey, heq] at hstale
        exact hstale.mono (by omega)
      · subst k
        rw [hi] at hk
        cases hk
        exact absurd hdn (hheld n hnj)
      · have hstale := ih i hij k d g hik hk hi (hdkey.trans hkey.symm) (heq.trans hwin.symm)
          fun m hm hdm => by rw [hdn] at hdm; cases hdm; omega
        rw [hkey, hwin] at hstale
        exact hstale.mono (by omega)

/-- A key is refused a guard exactly if one was issued for it in this window and none of the key was
dropped since. Two guards of a key are kept in one window only if a guard of an earlier window was
dropped between them. -/
theorem kept_once_unless_dropsStale (millis : UInt64) (start : Clock) (calls : List GuardCall)
    (now : Clock) (key : String) (steady : Steady start (calls ++ [.guard now key])) :
    let c := (fresh millis start).run calls
    ((c.tryGuard now key).1 = false ↔
      Holds c.guards key (Marks.windowAt (Marks.windowLength millis) now)) ∧
    ∀ (i j : Nat) (g h : Guard), i < j → c.guards[i]? = some g → c.guards[j]? = some h →
      g.key = h.key → g.window = h.window → g.fate = .kept → h.fate = .kept →
      DropsStale c.guards h.key h.window j := by
  intro c
  obtain ⟨before, hle⟩ := steady.append
  obtain ⟨hc, hlen, t, ht, hwin⟩ := consistent_run millis start calls before
  have hnow : c.marks.window ≤ Marks.windowAt c.marks.length now := by
    rw [hlen, hwin]
    exact windowAt_mono (windowLength_pos millis) (hle t ht now rfl)
  constructor
  · have hforce := (hc.look hnow).inForce key
    have hnew := Marks.mark_isNew c.marks now key
    rw [← Bool.not_eq_true, show (c.tryGuard now key).1 = (c.marks.mark now key).1 from rfl, hnew,
      not_not, ← hlen]
    exact (and_iff_left (List.not_mem_nil)).symm.trans hforce
  · intro i j g h hij hi hj hkey hwin hkept _
    exact hc.dropsStale j i g h hij hi hj hkey hwin fun n _ hn => by rw [hkept] at hn; cases hn

def staleDrop : List GuardCall :=
  [.guard ⟨0⟩ "web", .guard ⟨1000⟩ "web", .keep 1, .drop 0]

theorem kept_once_unless_dropsStale_web :
    Steady ⟨0⟩ (staleDrop.take 3 ++ [.guard ⟨1500⟩ "web"]) ∧
    Holds ((fresh 1000 ⟨0⟩).run (staleDrop.take 3)).guards "web"
      (Marks.windowAt (Marks.windowLength 1000) ⟨1500⟩) := by
  have steady : Steady ⟨0⟩ (staleDrop.take 3 ++ [.guard ⟨1500⟩ "web"]) := by decide
  have refused := (kept_once_unless_dropsStale 1000 ⟨0⟩ (staleDrop.take 3) ⟨1500⟩ "web" steady).1
  exact ⟨steady, refused.mp (by decide)⟩

/-- The key gets a second guard in the window, and both are kept. -/
theorem guard_kept_twice_in_window :
    Steady ⟨0⟩ (staleDrop ++ [.guard ⟨1000⟩ "web", .keep 2]) ∧
    ((fresh 1000 ⟨0⟩).run (staleDrop ++ [.guard ⟨1000⟩ "web", .keep 2])).guards =
      [⟨"web", 0, .dropped 2⟩, ⟨"web", 1, .kept⟩, ⟨"web", 1, .kept⟩] := by
  decide

end Guarded

end TraceIndex
