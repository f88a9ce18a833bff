import TraceIndex.Proofs.EventOrder

namespace TraceIndex

theorem toInt_sub_of_fits {a b : Int64} (low : -0x8000000000000000 ≤ a.toInt - b.toInt)
    (high : a.toInt - b.toInt < 0x8000000000000000) : (a - b).toInt = a.toInt - b.toInt := by
  rw [Int64.toInt_sub]
  apply Int.bmod_eq_of_le <;> omega

namespace Span

def Near (events : List Event) : Prop :=
  ∀ a ∈ events, ∀ b ∈ events, b.time.toInt - a.time.toInt < 0x8000000000000000

/-- A duration is measured only where the span has none of its own. -/
def Measurable (s : Span) : Prop := s.duration = none → Near s.events

instance (s : Span) : Decidable s.Measurable :=
  inferInstanceAs (Decidable (s.duration = none → ∀ a ∈ s.events, ∀ b ∈ s.events, _))

def earliest? (value : String) (events : List Event) : Option Int :=
  (times (events.filter (·.value = value))).min?

def clientTime? (events : List Event) : Option Int := do
  return (← earliest? clientReceive events) - (← earliest? clientSend events)

def spread? (events : List Event) : Option Int := do
  return (← (times events).max?) - (← (times events).min?)

/-- What two or more events tell of the duration of their span. Where the client did not take a
positive time, the spread of the events does not stand in for it. -/
def durationOf? (events : List Event) : Option Int :=
  if events.length < 2 then none else (clientTime? events <|> spread? events).filter (0 < ·)

section Sorted

variable {events sorted : List Event} {a b : Event}

theorem Near.toInt_sub (near : Near events) (ha : a ∈ events) (hb : b ∈ events) :
    (b.time - a.time).toInt = b.time.toInt - a.time.toInt := by
  have hab := near a ha b hb
  have hba := near b hb a ha
  apply toInt_sub_of_fits <;> omega

theorem exists_of_timeOf? {value : String} {t : Int64} (h : timeOf? value sorted = some t) :
    ∃ e ∈ sorted, e.time = t := by
  obtain ⟨e, he, rfl⟩ := Option.map_eq_some_iff.mp h
  exact ⟨e, List.mem_of_find?_eq_some he, rfl⟩

theorem toInt_timeOf? (h : InOrder events sorted) (value : String) :
    (timeOf? value sorted).map Int64.toInt = earliest? value events := by
  rw [timeOf?, Option.map_map, earliest?, ← h.earliest]
  rfl

theorem toInt_clientDuration? (h : InOrder events sorted) (near : Near events) :
    (clientDuration? sorted).map Int64.toInt = clientTime? events := by
  rw [clientTime?, ← toInt_timeOf? h, ← toInt_timeOf? h, clientDuration?]
  cases hsent : timeOf? clientSend sorted with
  | none => cases timeOf? clientReceive sorted <;> rfl
  | some sent =>
    cases hreceived : timeOf? clientReceive sorted with
    | none => rfl
    | some received =>
      obtain ⟨a, ha, rfl⟩ := exists_of_timeOf? hsent
      obtain ⟨b, hb, rfl⟩ := exists_of_timeOf? hreceived
      exact congrArg some (near.toInt_sub (h.perm.mem_iff.mp ha) (h.perm.mem_iff.mp hb))

theorem positive_toInt (d : Int64) :
    (if 0 < d then some d else none).map Int64.toInt = (some d.toInt).filter (0 < ·) := by
  have hpositive : 0 < d ↔ 0 < d.toInt := by
    rw [Int64.lt_iff_toInt_lt, Int64.toInt_zero]
  rw [Option.filter_some]
  by_cases h : 0 < d
  · simp only [h, hpositive.mp h, ↓reduceIte, decide_true, Option.map_some]
  · simp only [h, mt hpositive.mpr h, ↓reduceIte, decide_false, Bool.false_eq_true, Option.map_none]

theorem toInt_derivedDuration? (h : InOrder events sorted) (near : Near events) :
    (derivedDuration? sorted).map Int64.toInt = durationOf? events := by
  have hlength := h.perm.length_eq
  match sorted with
  | [] | [_] =>
    rw [durationOf?, ← hlength, if_pos (by simp)]
    rfl
  | first :: second :: rest =>
    let last := (second :: rest).getLast (by simp)
    have hfirst : first ∈ events := h.perm.mem_iff.mp List.mem_cons_self
    have hlast : last ∈ events :=
      h.perm.mem_iff.mp (List.mem_cons_of_mem first (List.getLast_mem _))
    have hspread : spread? events = some (last.time - first.time).toInt := by
      rw [spread?, ← h.first, ← h.last, near.toInt_sub hfirst hlast]
      rfl
    rw [durationOf?, ← hlength, if_neg (by simp), ← toInt_clientDuration? h near, hspread,
      derivedDuration?]
    cases hclient : clientDuration? (first :: second :: rest) with
    | none => exact positive_toInt (last.time - first.time)
    | some d => exact positive_toInt d

end Sorted

/-- Normalizing meets its specification, and a span that was normalized stays as it is. -/
theorem normalize_meets (s : Span) (measurable : s.Measurable) :
    (∀ sorted, InOrder s.events sorted ↔ s.normalize.events = sorted) ∧
    s.normalize = { s with
      events := s.normalize.events
      timestamp := s.normalize.timestamp
      duration := s.normalize.duration } ∧
    s.normalize.timestamp.map Int64.toInt =
      (s.timestamp.map Int64.toInt <|> (times s.events).min?) ∧
    s.normalize.duration.map Int64.toInt =
      (s.duration.map Int64.toInt <|> durationOf? s.events) ∧
    s.normalize.normalize = s.normalize := by
  have hsorted := inOrder_byTime s.events
  refine ⟨fun sorted => ?_, rfl, ?_, ?_, s.normalize_normalize⟩
  · constructor
    · exact hsorted.eq
    · rintro rfl
      exact hsorted
  · cases h : s.timestamp with
    | none =>
      rw [normalize, h, ← hsorted.first]
      exact Option.map_map ..
    | some t => rw [normalize, h]; rfl
  · cases h : s.duration with
    | none =>
      rw [normalize, h]
      exact toInt_derivedDuration? hsorted (measurable h)
    | some d => rw [normalize, h]; rfl

theorem normalize_meets_reversed :
    let s : Span := ⟨1, 2, none, "get", none, none,
      [⟨20, "retry", none⟩, ⟨9, clientSend, none⟩, ⟨5, clientReceive, none⟩], []⟩
    s.Measurable ∧
    (∀ sorted, InOrder s.events sorted ↔ s.normalize.events = sorted) ∧
    s.normalize.timestamp.map Int64.toInt = some 5 ∧
    clientTime? s.events = some (-4) ∧ spread? s.events = some 15 ∧
    s.normalize.duration.map Int64.toInt = none ∧
    s.normalize.normalize = s.normalize := by
  intro s
  have measurable : s.Measurable := by decide +kernel
  obtain ⟨horder, -, htime, hduration, hagain⟩ := normalize_meets s measurable
  refine ⟨measurable, horder, ?_, by decide +kernel, by decide +kernel, ?_, hagain⟩
  · rw [htime]
    decide +kernel
  · rw [hduration]
    decide +kernel

end Span

end TraceIndex
