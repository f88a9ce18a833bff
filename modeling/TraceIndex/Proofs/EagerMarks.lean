import Mathlib.Data.Finset.Card
import Mathlib.Data.List.Induction
import Mathlib.Tactic.Linarith
import TraceIndex.Proofs.Guards

namespace TraceIndex

/-- A call to the marks, through their guards or past them. -/
inductive MarkCall
  | guarded (call : GuardCall)
  | mark (now : Clock) (key : String)
  | unmark (now : Clock) (key : String)
  | revert (key : String)
  deriving DecidableEq, Repr

inductive MarkAnswer
  | isNew (isNew : Bool)
  | found (found : Bool)
  | counted (n : Nat)
  | nothing
  deriving DecidableEq, Repr

namespace MarkCall

@[simp]
def now? : MarkCall → Option Clock
  | guarded call => call.now?
  | mark now _ | unmark now _ => some now
  | revert _ => none

/-- The key that a call leaves marked, and when. -/
@[simp]
def mark? : MarkCall → Option (Clock × String)
  | mark now key | guarded (.guard now key) => some (now, key)
  | guarded (.keep _) | guarded (.drop _) | guarded (.contains ..) | guarded (.count _)
  | unmark .. | revert _ => none

end MarkCall

def Guard.heldKey? (g : Guard) : Option String := if g.fate = .held then some g.key else none

namespace Guarded

def next (c : Guarded) : MarkCall → Guarded
  | .guarded call => c.call call
  | .mark now key => { c with marks := (c.marks.mark now key).2 }
  | .unmark now key => { c with marks := c.marks.unmark now key }
  | .revert key => { c with marks := c.marks.revert key }

def answer (c : Guarded) : MarkCall → MarkAnswer
  | .guarded (.guard now key) => .isNew (c.tryGuard now key).1
  | .guarded (.contains now key) => .found (c.marks.contains now key).1
  | .guarded (.count now) => .counted (c.marks.count now).1
  | .mark now key => .isNew (c.marks.mark now key).1
  | .guarded (.keep _) | .guarded (.drop _) | .unmark .. | .revert _ => .nothing

def answers (c : Guarded) : List MarkCall → List MarkAnswer
  | [] => []
  | a :: calls => c.answer a :: (c.next a).answers calls

def reach (c : Guarded) (calls : List MarkCall) : Guarded := calls.foldl next c

@[simp] theorem reach_append (c : Guarded) (calls more : List MarkCall) :
    c.reach (calls ++ more) = (c.reach calls).reach more :=
  List.foldl_append

/-- The call takes a key back: by a look in another window, by its name, or by a guard of it. -/
def Forgets (c : Guarded) (key : String) (a : MarkCall) : Prop :=
  (∃ now ∈ a.now?, now.millis.toInt / c.marks.length ≠ c.marks.window) ∨
    (∃ now, a = .unmark now key) ∨ a = .revert key ∨
    ∃ i g, a = .guarded (.drop i) ∧ c.held? i = some g ∧ g.key = key

/-- A look of the present window marked the key, and no call since took it back. -/
def Standing (c : Guarded) (calls : List MarkCall) (key : String) : Prop :=
  ∃ before a after now, calls = before ++ a :: after ∧ a.mark? = some (now, key) ∧
    now.millis.toInt / c.marks.length = (c.reach calls).marks.window ∧
    ∀ l b r, after = l ++ b :: r → ¬ (c.reach (before ++ a :: l)).Forgets key b

end Guarded

/-- Marks that forget a key at the moment it is given back. A guard is the key that it holds. -/
structure EagerMarks where
  length : Nat
  window : Int
  keys : Finset String
  guards : List (Option String)

namespace EagerMarks

/-- The window of a time is its quotient by the length, which is at least one and fits a signed
number. -/
def fresh (millis : UInt64) (start : Clock) : EagerMarks where
  length := max 1 (min millis.toNat (2 ^ 63 - 1))
  window := start.millis.toInt / max 1 (min millis.toNat (2 ^ 63 - 1))
  keys := ∅
  guards := []

def enter (e : EagerMarks) (now : Clock) : EagerMarks :=
  let window := now.millis.toInt / e.length
  { e with window, keys := if window = e.window then e.keys else ∅ }

def mark (e : EagerMarks) (key : String) : EagerMarks := { e with keys := insert key e.keys }

def forget (e : EagerMarks) (key : String) : EagerMarks := { e with keys := e.keys.erase key }

def release (e : EagerMarks) (i : Nat) : EagerMarks := { e with guards := e.guards.set i none }

def next (e : EagerMarks) : MarkCall → EagerMarks
  | .mark now key => (e.enter now).mark key
  | .guarded (.guard now key) =>
      let e := e.enter now
      if key ∈ e.keys then e else { e.mark key with guards := e.guards ++ [some key] }
  | .guarded (.keep i) => e.release i
  | .guarded (.drop i) =>
      match e.guards[i]?.join with
      | none => e
      | some key => (e.forget key).release i
  | .guarded (.contains now _) | .guarded (.count now) => e.enter now
  | .unmark now key => (e.enter now).forget key
  | .revert key => e.forget key

def answer (e : EagerMarks) : MarkCall → MarkAnswer
  | .mark now key | .guarded (.guard now key) => .isNew (key ∉ (e.enter now).keys)
  | .guarded (.contains now key) => .found (key ∈ (e.enter now).keys)
  | .guarded (.count now) => .counted (e.enter now).keys.card
  | .guarded (.keep _) | .guarded (.drop _) | .unmark .. | .revert _ => .nothing

def answers (e : EagerMarks) : List MarkCall → List MarkAnswer
  | [] => []
  | a :: calls => e.answer a :: (e.next a).answers calls

def reach (e : EagerMarks) (calls : List MarkCall) : EagerMarks := calls.foldl next e

@[simp] theorem reach_append (e : EagerMarks) (calls more : List MarkCall) :
    e.reach (calls ++ more) = (e.reach calls).reach more :=
  List.foldl_append

@[simp] theorem mem_enter_keys (e : EagerMarks) (now : Clock) (key : String) :
    key ∈ (e.enter now).keys ↔ now.millis.toInt / e.length = e.window ∧ key ∈ e.keys := by
  simp only [enter]
  split <;> simp [*]

@[simp] theorem mem_forget_keys (e : EagerMarks) (key other : String) :
    other ∈ (e.forget key).keys ↔ other ∈ e.keys ∧ key ≠ other := by
  rw [forget, Finset.mem_erase, and_comm, ne_comm]

theorem next_guard_keys (e : EagerMarks) (now : Clock) (key : String) :
    (e.next (.guarded (.guard now key))).keys = insert key (e.enter now).keys := by
  simp only [next]
  split
  · exact (Finset.insert_eq_of_mem ‹_›).symm
  · rfl

end EagerMarks

namespace Guarded

/-- The marks keep the keys of the specification, apart from those whose revert waits. -/
structure Refines (c : Guarded) (e : EagerMarks) : Prop where
  length : e.length = c.marks.length
  window : e.window = c.marks.window
  live : ∀ key, c.marks.Live key ↔ key ∈ e.keys
  distinct : c.marks.marked.Nodup
  guards : e.guards = c.guards.map Guard.heldKey?

variable {c : Guarded} {e : EagerMarks}

theorem windowLength_eq (millis : UInt64) :
    Marks.windowLength millis = max 1 (min millis.toNat (2 ^ 63 - 1)) := by
  have hmax : Int64.maxValue.toNatClampNeg = 2 ^ 63 - 1 := by decide
  rw [Marks.windowLength, hmax]

theorem refines_fresh (millis : UInt64) (start : Clock) :
    (fresh millis start).Refines (.fresh millis start) where
  length := (windowLength_eq millis).symm
  window := by
    simp only [fresh, Marks.fresh, Marks.windowAt, windowLength_eq, EagerMarks.fresh]
  live key := ⟨fun h => absurd h (Marks.not_live_fresh start key millis), fun h => by cases h⟩
  distinct := List.nodup_nil
  guards := rfl

theorem nodup_refresh {m : Marks} (h : m.marked.Nodup) (now : Clock) :
    (m.refresh now).marked.Nodup := by
  simp only [Marks.refresh]
  split
  · exact h.filter _
  · exact List.nodup_nil

theorem Refines.look (h : c.Refines e) (now : Clock) : (c.look now).Refines (e.enter now) where
  length := h.length
  window := congrArg (fun length : Nat => now.millis.toInt / length) h.length
  live key := by
    rw [EagerMarks.mem_enter_keys, h.length, h.window, ← h.live key]
    exact (Marks.live_refresh ..).trans (Marks.inForce_iff ..)
  distinct := nodup_refresh h.distinct now
  guards := h.guards

theorem Refines.inForce_iff (h : c.Refines e) (now : Clock) (key : String) :
    c.marks.InForce now key ↔ key ∈ (e.enter now).keys :=
  (Marks.live_refresh ..).symm.trans ((h.look now).live key)

theorem Refines.mark (h : c.Refines e) (now : Clock) (key : String) :
    Refines { c with marks := (c.marks.mark now key).2 } ((e.enter now).mark key) where
  length := h.length.trans (Marks.mark_length ..).symm
  window := (h.look now).window.trans (Marks.mark_window ..).symm
  live other := by
    rw [Marks.live_mark, h.inForce_iff]
    exact Finset.mem_insert.symm
  distinct := by
    have hn := nodup_refresh h.distinct now
    by_cases hk : c.marks.InForce now key
    · rw [Marks.mark_eq_of_inForce hk]
      exact hn
    · rw [Marks.mark_eq_of_not_inForce hk]
      exact hn.cons hk
  guards := h.guards

theorem Refines.tryGuard (h : c.Refines e) (now : Clock) (key : String) :
    (c.tryGuard now key).2.Refines (e.next (.guarded (.guard now key))) := by
  have hm := h.mark now key
  have hin := h.inForce_iff now key
  by_cases hk : c.marks.InForce now key
  · have hfound := hin.mp hk
    rw [Guarded.tryGuard, Marks.mark_eq_of_inForce hk]
    simp only [EagerMarks.next, hfound, if_true]
    exact h.look now
  · have hmissing : key ∉ (e.enter now).keys := fun hf => hk (hin.mpr hf)
    rw [Marks.mark_eq_of_not_inForce hk] at hm
    rw [Guarded.tryGuard, Marks.mark_eq_of_not_inForce hk]
    simp only [EagerMarks.next, hmissing, if_false]
    refine ⟨hm.length, hm.window, hm.live, hm.distinct, ?_⟩
    have hguards : (e.enter now).guards = c.guards.map Guard.heldKey? := h.guards
    simp [hguards, Guard.heldKey?]

theorem Refines.forget (h : c.Refines e) {key : String} {marks : Marks}
    (hl : marks.length = c.marks.length) (hw : marks.window = c.marks.window)
    (hd : marks.marked.Nodup) (hlive : ∀ other, marks.Live other ↔ c.marks.Live other ∧ other ≠ key) :
    Refines { c with marks } (e.forget key) where
  length := h.length.trans hl.symm
  window := h.window.trans hw.symm
  live _ := by rw [hlive, h.live, EagerMarks.mem_forget_keys, ne_comm]
  distinct := hd
  guards := h.guards

theorem Refines.revert (h : c.Refines e) (key : String) :
    Refines { c with marks := c.marks.revert key } (e.forget key) :=
  h.forget rfl rfl h.distinct fun _ => Marks.live_revert ..

theorem Refines.unmark (h : c.Refines e) (now : Clock) (key : String) :
    Refines { c with marks := c.marks.unmark now key } ((e.enter now).forget key) := by
  have hl := h.look now
  have hd : (c.marks.unmark now key).marked.Nodup := hl.distinct.erase key
  refine hl.forget rfl rfl hd fun other => ?_
  have herase : other ∈ (c.marks.unmark now key).marked ↔
      other ∈ (c.marks.refresh now).marked ∧ other ≠ key := by
    rw [and_comm]
    exact hl.distinct.mem_erase_iff
  have hnone : other ∉ (c.marks.unmark now key).reverts := List.not_mem_nil
  rw [Marks.Live, and_iff_left hnone, herase]
  exact and_congr_left fun _ => (and_iff_left List.not_mem_nil).symm

theorem Refines.held? (h : c.Refines e) (i : Nat) :
    e.guards[i]?.join = (c.held? i).map Guard.key := by
  rw [h.guards, List.getElem?_map]
  simp only [Guarded.held?]
  cases c.guards[i]? with
  | none => rfl
  | some g => by_cases hg : g.fate = .held <;> simp [Guard.heldKey?, hg]

theorem heldKey?_settle {i : Nat} {g : Guard} (fate : GuardFate) (hf : fate ≠ .held) :
    (c.settle i g fate).map Guard.heldKey? = (c.guards.map Guard.heldKey?).set i none := by
  simp [settle, Guard.heldKey?, hf]

theorem Refines.release_of_none (h : c.Refines e) {i : Nat} (hi : c.held? i = none) :
    e.release i = e := by
  have hnone := h.held? i
  rw [hi, Option.map_none] at hnone
  have hset : e.guards.set i none = e.guards := by
    apply List.ext_getElem?
    intro k
    rw [List.getElem?_set]
    split
    · subst k
      cases hg : e.guards[i]? with
      | none => rw [List.getElem?_eq_none_iff] at hg; simp [Nat.not_lt.mpr hg]
      | some o =>
        rw [hg] at hnone
        have ho : o = none := hnone
        simp [(List.getElem?_eq_some_iff.mp hg).1, ho]
    · rfl
  rw [EagerMarks.release, hset]

theorem Refines.keep (h : c.Refines e) (i : Nat) : (c.keep i).Refines (e.release i) := by
  unfold Guarded.keep
  split
  · rename_i hi
    rw [h.release_of_none hi]
    exact h
  · rename_i g hi
    have hguards : (e.guards.set i none) = (c.settle i g .kept).map Guard.heldKey? := by
      rw [heldKey?_settle .kept (by decide), h.guards]
    exact ⟨h.length, h.window, h.live, h.distinct, hguards⟩

theorem Refines.drop (h : c.Refines e) (i : Nat) :
    (c.drop i).Refines (e.next (.guarded (.drop i))) := by
  simp only [EagerMarks.next, h.held?]
  unfold Guarded.drop
  cases hi : c.held? i with
  | none => exact h
  | some g =>
    have hr := h.revert g.key
    refine ⟨hr.length, hr.window, hr.live, hr.distinct, ?_⟩
    rw [heldKey?_settle _ (by simp), ← h.guards]
    rfl

theorem Refines.next (h : c.Refines e) (a : MarkCall) : (c.next a).Refines (e.next a) := by
  cases a with
  | guarded call =>
    cases call with
    | guard now key => exact h.tryGuard now key
    | keep i => exact h.keep i
    | drop i => exact h.drop i
    | contains now key | count now => exact h.look now
  | mark now key => exact h.mark now key
  | unmark now key => exact h.unmark now key
  | revert key => exact h.revert key

theorem Refines.reach (h : c.Refines e) (calls : List MarkCall) :
    (c.reach calls).Refines (e.reach calls) := by
  induction calls generalizing c e with
  | nil => exact h
  | cons a calls ih => exact ih (h.next a)

theorem Refines.count (h : c.Refines e) (now : Clock) :
    (c.marks.count now).1 = (e.enter now).keys.card := by
  have hl := h.look now
  have hkeys : (c.marks.refresh now).marked.toFinset = (e.enter now).keys := by
    ext key
    rw [List.mem_toFinset, ← h.inForce_iff]
    rfl
  rw [← hkeys]
  exact (List.toFinset_card_of_nodup hl.distinct).symm

theorem Refines.isNew (h : c.Refines e) (now : Clock) (key : String) :
    (c.marks.mark now key).1 = decide (key ∉ (e.enter now).keys) := by
  rw [Bool.eq_iff_iff, Marks.mark_isNew, h.inForce_iff, decide_eq_true_iff]

theorem Refines.answer (h : c.Refines e) (a : MarkCall) : c.answer a = e.answer a := by
  cases a with
  | guarded call =>
    cases call with
    | guard now key => exact congrArg MarkAnswer.isNew (h.isNew now key)
    | contains now key =>
      exact congrArg MarkAnswer.found (decide_eq_decide.mpr (h.inForce_iff now key))
    | count now => exact congrArg MarkAnswer.counted (h.count now)
    | keep i | drop i => rfl
  | mark now key => exact congrArg MarkAnswer.isNew (h.isNew now key)
  | unmark now key | revert key => rfl

theorem Refines.answers (h : c.Refines e) (calls : List MarkCall) :
    c.answers calls = e.answers calls := by
  induction calls generalizing c e with
  | nil => rfl
  | cons a calls ih =>
    rw [Guarded.answers, EagerMarks.answers, h.answer a, ih (h.next a)]

/-- The keys of the specification after a call, told by the call. -/
theorem Refines.mem_next_keys (h : c.Refines e) (a : MarkCall) (key : String) :
    key ∈ (e.next a).keys ↔
      (∃ now, a.mark? = some (now, key)) ∨ key ∈ e.keys ∧ ¬ c.Forgets key a := by
  cases a with
  | guarded call =>
    cases call with
    | guard now k =>
      simp [EagerMarks.next_guard_keys, Forgets, GuardCall.now?, h.length, h.window, and_comm, eq_comm]
    | keep i => simp [Forgets, GuardCall.now?, EagerMarks.next, EagerMarks.release]
    | drop i =>
      simp only [EagerMarks.next, h.held?]
      cases hi : c.held? i with
      | none => simp [Forgets, GuardCall.now?, hi]
      | some g => simp [EagerMarks.release, Forgets, GuardCall.now?, hi]
    | contains now k | count now =>
      simp [Forgets, GuardCall.now?, EagerMarks.next, h.length, h.window, and_comm]
  | mark now k =>
    simp [Forgets, EagerMarks.next, EagerMarks.mark, h.length, h.window, and_comm, eq_comm]
  | unmark now k =>
    simp [Forgets, EagerMarks.next, h.length, h.window, and_comm, and_left_comm]
  | revert k => simp [Forgets, EagerMarks.next]

@[simp] theorem next_length (a : MarkCall) : (c.next a).marks.length = c.marks.length := by
  cases a with
  | guarded call => exact call_length call
  | mark now key => exact Marks.mark_length ..
  | unmark now key | revert key => rfl

theorem next_window (a : MarkCall) :
    (c.next a).marks.window =
      (a.now?.map (Marks.windowAt c.marks.length)).getD c.marks.window := by
  cases a with
  | guarded call => exact call_window call
  | mark now key => exact Marks.mark_window ..
  | unmark now key | revert key => rfl

@[simp] theorem reach_length (calls : List MarkCall) :
    (c.reach calls).marks.length = c.marks.length := by
  induction calls generalizing c with
  | nil => rfl
  | cons a calls ih => exact ih.trans (next_length a)

theorem next_window_of_not_forgets {a : MarkCall} {key : String} (h : ¬ c.Forgets key a) :
    (c.next a).marks.window = c.marks.window := by
  rw [next_window]
  cases hnow : a.now? with
  | none => rfl
  | some now =>
    by_contra hne
    exact h (.inl ⟨now, hnow, hne⟩)

theorem now?_of_mark? {a : MarkCall} {now : Clock} {key : String} (h : a.mark? = some (now, key)) :
    a.now? = some now := by
  cases a with
  | guarded call => cases call <;> simp_all [GuardCall.now?]
  | mark now key => simp_all
  | unmark now key | revert key => simp at h

theorem Refines.mem_reach_keys (h : c.Refines e) {key : String} (calls : List MarkCall)
    (hk : key ∈ e.keys)
    (hkept : ∀ l b r, calls = l ++ b :: r → ¬ (c.reach l).Forgets key b) :
    key ∈ (e.reach calls).keys := by
  induction calls generalizing c e with
  | nil => exact hk
  | cons a calls ih =>
    have hnot : ¬ c.Forgets key a := hkept [] a calls rfl
    apply ih (h.next a) ((h.mem_next_keys a key).mpr (.inr ⟨hk, hnot⟩))
    intro l b r hcalls
    exact hkept (a :: l) b r (by rw [hcalls, List.cons_append])

theorem Standing.concat {calls : List MarkCall} {key : String} (h : c.Standing calls key)
    {a : MarkCall} (ha : ¬ (c.reach calls).Forgets key a) : c.Standing (calls ++ [a]) key := by
  obtain ⟨before, m, after, now, rfl, hm, hwin, hkept⟩ := h
  refine ⟨before, m, after ++ [a], now, by simp, hm, ?_, ?_⟩
  · rw [hwin, reach_append _ _ [a]]
    exact (next_window_of_not_forgets ha).symm
  · intro l b r hafter
    cases r using List.reverseRecOn with
    | nil =>
      obtain ⟨rfl, hb⟩ := List.append_inj' hafter rfl
      cases hb
      exact ha
    | append_singleton r _ =>
      rw [← List.cons_append, ← List.append_assoc] at hafter
      exact hkept l b r (List.append_inj' hafter rfl).1

/-- The keys of the specification are told by the history alone. -/
theorem Refines.mem_reach_keys_iff (h : c.Refines e) (hnone : e.keys = ∅) (calls : List MarkCall)
    (key : String) : key ∈ (e.reach calls).keys ↔ c.Standing calls key := by
  constructor
  · -- The last call marked the key, or it took nothing back and an earlier one did.
    induction calls using List.reverseRecOn with
    | nil =>
      intro hk
      rw [EagerMarks.reach, List.foldl_nil, hnone] at hk
      cases hk
    | append_singleton calls a ih =>
      intro hk
      rw [EagerMarks.reach_append] at hk
      obtain ⟨now, ha⟩ | ⟨hk, ha⟩ := ((h.reach calls).mem_next_keys a key).mp hk
      · refine ⟨calls, a, [], now, rfl, ha, ?_, by simp⟩
        have hwin := next_window (c := c.reach calls) a
        rw [now?_of_mark? ha, reach_length] at hwin
        rw [reach_append]
        exact hwin.symm
      · exact (ih hk).concat ha
  · rintro ⟨before, a, after, now, rfl, ha, -, hkept⟩
    have hbefore := h.reach (before ++ [a])
    have hmarked : key ∈ (e.reach (before ++ [a])).keys := by
      rw [EagerMarks.reach_append]
      exact ((h.reach before).mem_next_keys a key).mpr (.inl ⟨now, ha⟩)
    have hstays := hbefore.mem_reach_keys after hmarked fun l b r hafter => by
      have := hkept l b r hafter
      rwa [← reach_append, List.append_assoc]
    rwa [← EagerMarks.reach_append, List.append_assoc] at hstays

theorem next_reverts {a : MarkCall} {now : Clock} (h : a.now? = some now) :
    (c.next a).marks.reverts = [] := by
  cases a with
  | guarded call =>
    cases call with
    | guard now' key => exact Marks.mark_reverts ..
    | keep i | drop i => cases h
    | contains now' key | count now' => rfl
  | mark now' key => exact Marks.mark_reverts ..
  | unmark now' key => rfl
  | revert key => cases h

theorem length_fits (millis : UInt64) :
    ∃ length : Int64, length.toInt = max 1 (min millis.toNat (2 ^ 63 - 1)) :=
  ⟨_, Int64.toInt_ofInt_of_le (by omega) (by omega)⟩

theorem window_fits {length : Nat} (hpos : 0 < length) (now : Clock) :
    ∃ window : Int64, window.toInt = now.millis.toInt / length := by
  have hpos : (1 : Int) ≤ length := by omega
  have hlow := now.millis.le_toInt
  have hhigh := now.millis.toInt_lt
  have hge : -2 ^ 63 ≤ now.millis.toInt / length := by
    apply Int.le_ediv_of_mul_le (by omega)
    nlinarith
  have hlt : now.millis.toInt / length < 2 ^ 63 := by
    apply Int.ediv_lt_of_lt_mul (by omega)
    nlinarith
  exact ⟨_, Int64.toInt_ofInt_of_le hge hlt⟩

/-- The marks answer every history of calls as the specification does. What a look leaves marked is
what a look of its window marked and nothing took back since, and the count is of these keys. The
length of a window and the number of each are signed numbers, and the length is not zero. -/
theorem answers_eq_eager (millis : UInt64) (start : Clock) (calls : List MarkCall) :
    let c := fresh millis start
    let length := max 1 (min millis.toNat (2 ^ 63 - 1))
    c.answers calls = (EagerMarks.fresh millis start).answers calls ∧
    (∀ a now, a.now? = some now →
      (c.reach (calls ++ [a])).marks.window = now.millis.toInt / length ∧
      ∀ key, key ∈ (c.reach (calls ++ [a])).marks.marked ↔ c.Standing (calls ++ [a]) key) ∧
    (∀ now, ∃ keys : Finset String,
      (c.reach calls).answer (.guarded (.count now)) = .counted keys.card ∧
      ∀ key, key ∈ keys ↔ c.Standing (calls ++ [.guarded (.count now)]) key) ∧
    (c.reach calls).marks.length = length ∧ 0 < length ∧
    (∃ bound : Int64, bound.toInt = length) ∧
    ∀ now : Clock, ∃ window : Int64, window.toInt = now.millis.toInt / length := by
  intro c length
  have hfresh : c.Refines (.fresh millis start) := refines_fresh millis start
  have hlength : ∀ calls, (c.reach calls).marks.length = length := fun calls =>
    (reach_length calls).trans (windowLength_eq millis)
  have hpos : 0 < length := by omega
  refine ⟨hfresh.answers calls, fun a now ha => ⟨?_, fun key => ?_⟩, fun now => ?_,
    hlength calls, hpos, length_fits millis, window_fits hpos⟩
  · have hwin := next_window (c := c.reach calls) a
    rw [ha, hlength] at hwin
    rw [reach_append]
    exact hwin
  · have hrefines := hfresh.reach (calls ++ [a])
    have hnone : (c.reach (calls ++ [a])).marks.reverts = [] := by
      rw [reach_append]
      exact next_reverts ha
    rw [← hfresh.mem_reach_keys_iff rfl, ← hrefines.live key, Marks.Live, hnone]
    exact (and_iff_left List.not_mem_nil).symm
  · refine ⟨((EagerMarks.fresh millis start).reach (calls ++ [.guarded (.count now)])).keys,
      ?_, hfresh.mem_reach_keys_iff rfl _⟩
    rw [EagerMarks.reach_append]
    exact (hfresh.reach calls).answer (.guarded (.count now))

def remarked : List MarkCall :=
  [.guarded (.guard ⟨0⟩ "web"), .guarded (.guard ⟨0⟩ "api"), .guarded (.drop 0), .mark ⟨900⟩ "web",
    .revert "api"]

def moved : List MarkCall := remarked ++ [.mark ⟨1000⟩ "api", .mark ⟨-1⟩ "db"]

theorem answers_eq_eager_remarked :
    (MarkCall.guarded (.count ⟨999⟩)).now? = some ⟨999⟩ ∧
    (fresh 1000 ⟨0⟩).Standing (remarked ++ [.guarded (.count ⟨999⟩)]) "web" ∧
    ¬ (fresh 1000 ⟨0⟩).Standing (remarked ++ [.guarded (.count ⟨999⟩)]) "api" ∧
    (fresh 1000 ⟨0⟩).answers moved =
      [.isNew true, .isNew true, .nothing, .isNew true, .nothing, .isNew true, .isNew true] ∧
    ((fresh 1000 ⟨0⟩).reach (remarked ++ [.guarded (.count ⟨1000⟩)])).marks.window = 1 ∧
    ¬ (fresh 1000 ⟨0⟩).Standing (remarked ++ [.guarded (.count ⟨1000⟩)]) "web" ∧
    ((fresh 1000 ⟨0⟩).reach (moved ++ [.guarded (.count ⟨-1000⟩)])).marks.window = -1 ∧
    ¬ (fresh 1000 ⟨0⟩).Standing (moved ++ [.guarded (.count ⟨-1000⟩)]) "api" ∧
    (fresh 1000 ⟨0⟩).Standing (moved ++ [.guarded (.count ⟨-1000⟩)]) "db" := by
  have same := (answers_eq_eager 1000 ⟨0⟩ remarked).2.1 (.guarded (.count ⟨999⟩)) ⟨999⟩ rfl
  have later := (answers_eq_eager 1000 ⟨0⟩ remarked).2.1 (.guarded (.count ⟨1000⟩)) ⟨1000⟩ rfl
  have back := (answers_eq_eager 1000 ⟨0⟩ moved).2.1 (.guarded (.count ⟨-1000⟩)) ⟨-1000⟩ rfl
  refine ⟨rfl, (same.2 "web").mp (by decide), fun h => ?_, ?_, later.1.trans (by decide),
    fun h => ?_, back.1.trans (by decide), fun h => ?_, (back.2 "db").mp (by decide)⟩
  · exact absurd ((same.2 "api").mpr h) (by decide)
  · rw [(answers_eq_eager 1000 ⟨0⟩ moved).1]
    decide
  · exact absurd ((later.2 "web").mpr h) (by decide)
  · exact absurd ((back.2 "api").mpr h) (by decide)

end Guarded

end TraceIndex
