import TraceIndex.Ingest.Marks

namespace TraceIndex.Marks

/-- A key is in force at a time if its window has not passed and no revert of it waits. -/
def InForce (m : Marks) (now : Clock) (key : String) : Prop := key ∈ (m.refresh now).marked

/-- A key is live if it is marked and no revert of it waits, whatever the time. -/
def Live (m : Marks) (key : String) : Prop := key ∈ m.marked ∧ key ∉ m.reverts

variable (m : Marks) (now : Clock) (key other : String)

@[simp] theorem refresh_length : (m.refresh now).length = m.length := rfl

@[simp] theorem refresh_window : (m.refresh now).window = windowAt m.length now := rfl

@[simp] theorem refresh_reverts : (m.refresh now).reverts = [] := rfl

theorem mem_refresh_marked :
    key ∈ (m.refresh now).marked ↔
      windowAt m.length now = m.window ∧ key ∈ m.marked ∧ key ∉ m.reverts := by
  by_cases h : windowAt m.length now = m.window <;> simp [refresh, h]

theorem inForce_iff :
    m.InForce now key ↔ windowAt m.length now = m.window ∧ key ∈ m.marked ∧ key ∉ m.reverts :=
  mem_refresh_marked m now key

variable {m now key} in
theorem InForce.live (h : m.InForce now key) : m.Live key := ((m.inForce_iff now key).mp h).2

variable {m now key} in
theorem InForce.window (h : m.InForce now key) : (m.refresh now).window = m.window :=
  ((m.inForce_iff now key).mp h).1

@[simp] theorem live_refresh : (m.refresh now).Live key ↔ m.InForce now key :=
  and_iff_left (List.not_mem_nil)

theorem not_live_fresh (millis : UInt64) : ¬ (fresh millis now).Live key := fun h =>
  List.not_mem_nil h.1

@[simp] theorem live_revert : (m.revert other).Live key ↔ m.Live key ∧ key ≠ other := by
  simp [Live, revert, not_or, and_assoc]

@[simp] theorem live_reverts (keys : List String) :
    (keys.foldl revert m).Live key ↔ m.Live key ∧ key ∉ keys := by
  induction keys generalizing m with
  | nil => simp
  | cons k keys ih => simp [ih, not_or, and_assoc]

@[simp] theorem window_reverts (keys : List String) :
    (keys.foldl revert m).window = m.window := by
  induction keys generalizing m with
  | nil => rfl
  | cons k keys ih => exact ih (m.revert k)

@[simp] theorem length_reverts (keys : List String) :
    (keys.foldl revert m).length = m.length := by
  induction keys generalizing m with
  | nil => rfl
  | cons k keys ih => exact ih (m.revert k)

theorem inForce_reverts (keys : List String) :
    (keys.foldl revert m).InForce now key ↔ m.InForce now key ∧ key ∉ keys := by
  have hlive := m.live_reverts key keys
  rw [Live, Live] at hlive
  rw [inForce_iff, inForce_iff, length_reverts, window_reverts, hlive, ← and_assoc]

@[simp] theorem refresh_refresh : (m.refresh now).refresh now = m.refresh now := by
  simp [refresh]

@[simp] theorem inForce_refresh : (m.refresh now).InForce now key ↔ m.InForce now key := by
  rw [InForce, refresh_refresh, InForce]

theorem mark_eq_of_inForce {m : Marks} {now : Clock} {key : String} (h : m.InForce now key) :
    m.mark now key = (false, m.refresh now) := by
  simp only [mark]
  exact if_pos h

theorem mark_eq_of_not_inForce {m : Marks} {now : Clock} {key : String}
    (h : ¬ m.InForce now key) :
    m.mark now key =
      (true, { m.refresh now with marked := key :: (m.refresh now).marked }) := by
  simp only [mark]
  exact if_neg h

theorem mark_isNew : (m.mark now key).1 = true ↔ ¬ m.InForce now key := by
  by_cases h : m.InForce now key
  · simp [mark_eq_of_inForce h, h]
  · simp [mark_eq_of_not_inForce h, h]

@[simp] theorem mark_length : (m.mark now key).2.length = m.length := by
  by_cases h : m.InForce now key
  · rw [mark_eq_of_inForce h, refresh_length]
  · rw [mark_eq_of_not_inForce h, refresh_length]

@[simp] theorem mark_window : (m.mark now key).2.window = windowAt m.length now := by
  by_cases h : m.InForce now key
  · rw [mark_eq_of_inForce h, refresh_window]
  · rw [mark_eq_of_not_inForce h, refresh_window]

@[simp] theorem mark_reverts : (m.mark now key).2.reverts = [] := by
  by_cases h : m.InForce now key
  · rw [mark_eq_of_inForce h, refresh_reverts]
  · rw [mark_eq_of_not_inForce h, refresh_reverts]

theorem mem_mark_marked :
    other ∈ (m.mark now key).2.marked ↔ other = key ∨ m.InForce now other := by
  by_cases h : m.InForce now key
  · rw [mark_eq_of_inForce h]
    exact ⟨.inr, fun ho => ho.elim (fun he => he ▸ h) id⟩
  · rw [mark_eq_of_not_inForce h]
    exact List.mem_cons

theorem live_mark : (m.mark now key).2.Live other ↔ other = key ∨ m.InForce now other := by
  rw [Live, mark_reverts, mem_mark_marked]
  exact and_iff_left (List.not_mem_nil)

theorem inForce_mark :
    (m.mark now key).2.InForce now other ↔ other = key ∨ m.InForce now other := by
  rw [inForce_iff, mark_length, mark_window, mark_reverts, mem_mark_marked]
  simp

end TraceIndex.Marks
