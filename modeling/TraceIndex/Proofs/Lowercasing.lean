import TraceIndex.Proofs.Texts
import TraceIndex.Text.Lowercase

namespace TraceIndex.Text

namespace CaseRun

/-- What the first run leads to lies before the second, or behind it, or between its members. -/
def Apart (r q : CaseRun) : Prop :=
  r.target + (r.last - r.first) < q.first ∨ q.last < r.target ∨
    (q.stride = 2 ∧ (r.stride = 2 ∨ r.first = r.last) ∧ (r.target + q.first) % 2 = 1)

instance (r q : CaseRun) : Decidable (r.Apart q) := inferInstanceAs (Decidable (_ ∨ _))

variable {r q : CaseRun} {n : Nat}

theorem contains_iff :
    r.contains n ↔ r.first ≤ n ∧ n ≤ r.last ∧ (n - r.first) % r.stride = 0 := by
  simp [contains, and_assoc]

theorem Apart.not_contains (h : r.Apart q) (hn : r.contains n) : ¬ q.contains (r.lower n) := by
  obtain ⟨hfirst, hlast, hstride⟩ := contains_iff.mp hn
  intro hcontains
  obtain ⟨hfirst', hlast', hstride'⟩ := contains_iff.mp hcontains
  rw [lower] at hfirst' hlast' hstride'
  obtain hbefore | hbehind | ⟨htwo, hstep, hodd⟩ := h
  · omega
  · omega
  · rw [htwo] at hstride'
    obtain hstep | hstep := hstep
    · rw [hstep] at hstride
      omega
    · omega

def Valid (r : CaseRun) : Prop :=
  r.target + (r.last - r.first) < 0xD800 ∨
    0xDFFF < r.target ∧ r.target + (r.last - r.first) < 0x110000

instance (r : CaseRun) : Decidable r.Valid := inferInstanceAs (Decidable (_ ∨ _))

theorem Valid.toNat_lower (h : r.Valid) (hn : r.contains n) :
    (Char.ofNat (r.lower n)).toNat = r.lower n := by
  obtain ⟨hfirst, hlast, -⟩ := contains_iff.mp hn
  apply Utf8.toNat_char
  rw [lower]
  rw [Valid] at h
  omega

end CaseRun

def dottedRun : CaseRun := ⟨0x130, 0x130, 1, 0x69⟩

def IsLower (c : Char) : Prop := ∀ q ∈ dottedRun :: caseRuns, ¬ q.contains c.toNat

instance (c : Char) : Decidable (IsLower c) := inferInstanceAs (Decidable (∀ _ ∈ _, _))

theorem runs_apart : ∀ r ∈ caseRuns, ∀ q ∈ dottedRun :: caseRuns, r.Apart q := by
  have hall : caseRuns.all fun r => (dottedRun :: caseRuns).all (r.Apart ·) := by decide +kernel
  simpa only [List.all_eq_true, decide_eq_true_eq] using hall

theorem runs_valid : ∀ r ∈ caseRuns, r.Valid := by
  decide +kernel

theorem toLower_ascii : ∀ n < 0x80, (Char.ofNat n).toLower =
    match caseRuns.find? (·.contains n) with
    | some r => Char.ofNat (r.lower n)
    | none => Char.ofNat n := by
  decide +kernel

theorem lowerAlone_of_ne {c : Char} (h : c ≠ 'İ') :
    lowerAlone c = match caseRuns.find? (·.contains c.toNat) with
      | some r => [Char.ofNat (r.lower c.toNat)]
      | none => [c] := by
  by_cases hascii : c.toNat < 0x80
  · have hlower := toLower_ascii c.toNat hascii
    rw [Char.ofNat_toNat] at hlower
    rw [lowerAlone, if_pos hascii, hlower]
    cases caseRuns.find? (·.contains c.toNat) <;> rfl
  · exact (if_neg hascii).trans (if_neg h)

theorem isLower_of_mem_lowerAlone {c d : Char} (h : d ∈ lowerAlone c) : IsLower d := by
  by_cases hdotted : c = 'İ'
  · have hforms : IsLower 'i' ∧ IsLower '\u0307' := by decide +kernel
    have halone : lowerAlone c = ['i', '\u0307'] := by
      rw [hdotted]
      rfl
    rw [halone, List.mem_cons, List.mem_singleton] at h
    obtain rfl | rfl := h
    · exact hforms.1
    · exact hforms.2
  · rw [lowerAlone_of_ne hdotted] at h
    cases hfind : caseRuns.find? (·.contains c.toNat) with
    | some r =>
      rw [hfind] at h
      obtain rfl := List.mem_singleton.mp h
      have hr := List.mem_of_find?_eq_some hfind
      have hcontains : r.contains c.toNat := by
        have hfound := List.find?_some hfind
        exact hfound
      intro q hq
      rw [(runs_valid r hr).toNat_lower hcontains]
      exact (runs_apart r hr q hq).not_contains hcontains
    | none =>
      rw [hfind] at h
      obtain rfl := List.mem_singleton.mp h
      intro q hq
      obtain rfl | hq := List.mem_cons.mp hq
      · intro hcontains
        obtain ⟨hfirst, hlast, -⟩ := CaseRun.contains_iff.mp hcontains
        apply hdotted
        rw [← Char.ofNat_toNat d, Nat.le_antisymm hlast hfirst]
        rfl
      · exact List.find?_eq_none.mp hfind q hq

namespace IsLower

variable {c : Char}

theorem lowerAlone (h : IsLower c) : lowerAlone c = [c] := by
  have hne : c ≠ 'İ' := by
    rintro rfl
    exact h dottedRun List.mem_cons_self (by decide)
  have hfind : caseRuns.find? (·.contains c.toNat) = none :=
    List.find?_eq_none.mpr fun q hq => h q (List.mem_cons_of_mem _ hq)
  rw [lowerAlone_of_ne hne, hfind]

theorem ne_sigma (h : IsLower c) : c ≠ 'Σ' := by
  rintro rfl
  have hsigma : ¬ IsLower 'Σ' := by decide +kernel
  exact hsigma h

end IsLower

theorem isLower_lowerSigma (before after : List Char) : IsLower (lowerSigma before after) := by
  have hforms : IsLower 'ς' ∧ IsLower 'σ' := by decide +kernel
  rw [lowerSigma]
  split
  · exact hforms.1
  · exact hforms.2

theorem isLower_of_mem_lowerChars {before cs : List Char} {d : Char} (h : d ∈ lowerChars before cs) :
    IsLower d := by
  induction cs generalizing before with
  | nil => cases h
  | cons c cs ih =>
    rw [lowerChars, List.mem_append] at h
    obtain h | h := h
    · split at h
      · rw [List.mem_singleton.mp h]
        exact isLower_lowerSigma before cs
      · exact isLower_of_mem_lowerAlone h
    · exact ih h

/-- Where all characters are lowercase, no sigma is one that what stands around it decides on. -/
theorem lowerChars_of_isLower {before cs : List Char} (h : ∀ c ∈ cs, IsLower c) :
    lowerChars before cs = cs := by
  induction cs generalizing before with
  | nil => rfl
  | cons c cs ih =>
    obtain ⟨hc, hcs⟩ := List.forall_mem_cons.mp h
    rw [lowerChars, if_neg hc.ne_sigma, hc.lowerAlone, ih hcs, List.singleton_append]

/-- A text in lowercase is its own lowercase form. -/
theorem lowercase_lowercase (s : String) : lowercase (lowercase s) = lowercase s := by
  have hchars : lowerChars [] (lowerChars [] s.toList) = lowerChars [] s.toList :=
    lowerChars_of_isLower fun d hd => isLower_of_mem_lowerChars hd
  rw [lowercase, lowercase, String.toList_ofList, hchars]

example : lowercase "İΣ ΣΑΣ" = "i̇ς σας" ∧ lowercase "i̇ς σας" = "i̇ς σας" := by decide +kernel

end TraceIndex.Text
