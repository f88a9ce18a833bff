import Mathlib.Data.List.TakeWhile
import Mathlib.Data.Nat.Digits.Defs
import TraceIndex.Proofs.Texts
import TraceIndex.Store.Options

namespace TraceIndex

namespace Text

theorem trim_split (cs : List Char) :
    ∃ before after, cs = before ++ trim cs ++ after ∧ (∀ c ∈ before, isBlank c) ∧
      ∀ c ∈ after, isBlank c := by
  let kept := cs.dropWhile isBlank
  refine ⟨cs.takeWhile isBlank, (kept.reverse.takeWhile isBlank).reverse, ?_,
    fun c => List.mem_takeWhile_imp, fun c hc => List.mem_takeWhile_imp (List.mem_reverse.mp hc)⟩
  have hright : trim cs ++ (kept.reverse.takeWhile isBlank).reverse = kept := by
    rw [trim, ← List.reverse_append, List.takeWhile_append_dropWhile, List.reverse_reverse]
  rw [List.append_assoc, hright, List.takeWhile_append_dropWhile]

theorem trim_append {before core after : List Char} (hbefore : ∀ c ∈ before, isBlank c)
    (hcore : ∀ c ∈ core, ¬ isBlank c) (hafter : ∀ c ∈ after, isBlank c) :
    trim (before ++ core ++ after) = core := by
  have hleft : (before ++ core ++ after).dropWhile isBlank = (core ++ after).dropWhile isBlank := by
    rw [List.append_assoc, List.dropWhile_append_of_pos hbefore]
  rw [trim, hleft]
  cases core with
  | nil =>
    rw [List.nil_append, List.dropWhile_eq_nil_iff.mpr hafter]
    rfl
  | cons c core =>
    have hlast : (c :: core).reverse.dropWhile isBlank = (c :: core).reverse := by
      rw [List.dropWhile_eq_self_iff]
      intro hne
      simpa using hcore _ (List.mem_reverse.mp (List.getElem_mem hne))
    have hafter' : ∀ c ∈ after.reverse, isBlank c := fun c hc => hafter c (List.mem_reverse.mp hc)
    rw [List.cons_append, List.dropWhile_cons_of_neg (hcore c List.mem_cons_self),
      ← List.cons_append, List.reverse_append, List.dropWhile_append_of_pos hafter',
      hlast, List.reverse_reverse]

theorem not_isBlank_of_isDigit {c : Char} (h : isDigit c) : ¬ isBlank c := by
  obtain ⟨hlow, hhigh⟩ := toNat_of_isDigit h
  have hall : ∀ n < 10, ¬ isBlank (Char.ofNat (0x30 + n)) := by decide
  have hc := hall (c.toNat - 0x30) (by omega)
  rwa [Nat.add_sub_cancel' hlow, Char.ofNat_toNat] at hc

def ofDigits (digits : List Char) : Nat :=
  Nat.ofDigits 10 (digits.reverse.map fun c => c.toNat - '0'.toNat)

theorem ofDigits_eq_foldl (digits : List Char) :
    ofDigits digits = digits.foldl (fun n c => 10 * n + (c.toNat - 48)) 0 := by
  have hstep : (fun (n : Nat) (c : Char) => (c.toNat - '0'.toNat) + 10 * n) =
      fun n c => 10 * n + (c.toNat - 48) := by
    funext n c
    exact Nat.add_comm _ _
  rw [ofDigits, Nat.ofDigits_eq_foldr, List.foldr_map, List.foldr_reverse, ← hstep]
  simp only [Nat.cast_id]

theorem digits?_eq_some_iff {cs : List Char} {n : Nat} :
    digits? cs = some n ↔ cs ≠ [] ∧ (∀ c ∈ cs, isDigit c) ∧ ofDigits cs = n := by
  rw [digits?, ← ofDigits_eq_foldl]
  simp [and_assoc]

/-- A number without a sign or behind a plus sign, with as many zeros in front as one likes. -/
def WritesNumber (cs : List Char) (n : Nat) : Prop :=
  ∃ sign digits, cs = sign ++ digits ∧ (sign = [] ∨ sign = ['+']) ∧ digits ≠ [] ∧
    (∀ c ∈ digits, isDigit c) ∧ ofDigits digits = n

theorem WritesNumber.not_isBlank {cs : List Char} {n : Nat} (h : WritesNumber cs n) :
    ∀ c ∈ cs, ¬ isBlank c := by
  obtain ⟨sign, digits, rfl, hsign, -, hdigits, -⟩ := h
  intro c hc
  obtain hc | hc := List.mem_append.mp hc
  · obtain rfl | rfl := hsign
    · cases hc
    · obtain rfl := List.mem_singleton.mp hc
      decide
  · exact not_isBlank_of_isDigit (hdigits c hc)

theorem writesNumber_decimal (n : Nat) : WritesNumber (decimal n).toList n := by
  obtain ⟨hne, hdigits, hvalue⟩ := digits?_eq_some_iff.mp (digits?_toDigits n)
  exact ⟨[], _, toList_decimal_ofNat n, .inl rfl, hne, hdigits, hvalue⟩

end Text

namespace Options

open Text

theorem ofNat_eq_iff {m : Nat} {n : UInt32} :
    (if m < UInt32.size then some (UInt32.ofNat m) else none) = some n ↔ m = n.toNat := by
  constructor
  · intro h
    split at h
    · rename_i hlt
      rw [← Option.some.inj h, UInt32.toNat_ofNat_of_lt' hlt]
    · cases h
  · rintro rfl
    rw [if_pos n.toNat_lt, UInt32.ofNat_toNat]

theorem seconds?_eq_some_iff {cs : List Char} {n : UInt32} :
    seconds? cs = some n ↔ WritesNumber cs n.toNat := by
  have hfits : ∀ digits, ((digits? digits).bind fun m =>
      if m < UInt32.size then some (UInt32.ofNat m) else none) = some n ↔
        digits? digits = some n.toNat := by
    intro digits
    simp only [Option.bind_eq_some_iff, ofNat_eq_iff, exists_eq_right]
  simp only [seconds?, Option.bind_eq_bind, hfits]
  constructor
  · intro h
    split at h
    · exact ⟨['+'], _, rfl, .inr rfl, digits?_eq_some_iff.mp h⟩
    · exact ⟨[], cs, rfl, .inl rfl, digits?_eq_some_iff.mp h⟩
  · rintro ⟨sign, digits, rfl, hsign, hdigits⟩
    have hread := digits?_eq_some_iff.mpr hdigits
    obtain rfl | rfl := hsign
    · split
      · rename_i rest heq
        obtain rfl : digits = '+' :: rest := heq
        exact absurd (hdigits.2.1 '+' List.mem_cons_self) (by decide)
      · exact hread
    · exact hread

/-- A text with any blanks around a number of seconds, which 32 bits hold. -/
def TellsSeconds (raw : String) (n : UInt32) : Prop :=
  ∃ before number after, raw.toList = before ++ number ++ after ∧ (∀ c ∈ before, isBlank c) ∧
    (∀ c ∈ after, isBlank c) ∧ WritesNumber number n.toNat

theorem seconds?_trim_eq_some_iff {raw : String} {n : UInt32} :
    seconds? (trim raw.toList) = some n ↔ TellsSeconds raw n := by
  rw [seconds?_eq_some_iff]
  constructor
  · intro h
    obtain ⟨before, after, hsplit, hbefore, hafter⟩ := trim_split raw.toList
    exact ⟨before, _, after, hsplit, hbefore, hafter, h⟩
  · rintro ⟨before, number, after, hsplit, hbefore, hafter, hnumber⟩
    rw [hsplit, trim_append hbefore hnumber.not_isBlank hafter]
    exact hnumber

theorem defaultTtlSeconds_eq_ok_iff {o : Options} {t : Table} {n : UInt32} :
    o.defaultTtlSeconds t = .ok n ↔ ∃ raw, o.get? defaultTtl = some raw ∧ TellsSeconds raw n := by
  simp only [← seconds?_trim_eq_some_iff]
  unfold defaultTtlSeconds
  split
  · rename_i hnone
    simp [hnone]
  · rename_i raw hsome
    simp only [hsome, Option.some.injEq, exists_eq_left']
    split
    · rename_i m hm
      simp [hm]
    · rename_i hm
      simp [hm]

theorem defaultTtlSeconds_error {o : Options} {t : Table} {e : StoreFailure}
    (h : o.defaultTtlSeconds t = .error e) : ∃ m, e = .metadata m := by
  unfold defaultTtlSeconds at h
  split at h
  · exact ⟨_, (Except.error.inj h).symm⟩
  · split at h
    · cases h
    · exact ⟨_, (Except.error.inj h).symm⟩

/-- An option tells a number of seconds if it holds, between any blanks, digits behind at most one
plus sign, of a number that 32 bits hold: zeros in front do not count. Any other text, and no option
at all, is an error of the table's description. Each number of 32 bits is told by how it is written
in base ten. -/
theorem defaultTtl_exact (o : Options) (t : Table) :
    (∀ n, o.defaultTtlSeconds t = .ok n ↔
      ∃ raw, o.get? defaultTtl = some raw ∧ TellsSeconds raw n) ∧
    ((∃ m, o.defaultTtlSeconds t = .error (.metadata m)) ↔
      ∀ raw n, o.get? defaultTtl = some raw → ¬ TellsSeconds raw n) ∧
    ∀ (n : UInt32) (before after : String), (∀ c ∈ before.toList, isBlank c) →
      (∀ c ∈ after.toList, isBlank c) →
      o.get? defaultTtl = some (before ++ decimal n.toNat ++ after) →
      o.defaultTtlSeconds t = .ok n := by
  refine ⟨fun n => defaultTtlSeconds_eq_ok_iff, ⟨?_, fun hnone => ?_⟩, ?_⟩
  · rintro ⟨m, herror⟩ raw n hraw htells
    have hok := defaultTtlSeconds_eq_ok_iff (t := t).mpr ⟨raw, hraw, htells⟩
    rw [herror] at hok
    cases hok
  · cases h : o.defaultTtlSeconds t with
    | ok n =>
      obtain ⟨raw, hraw, htells⟩ := defaultTtlSeconds_eq_ok_iff.mp h
      exact absurd htells (hnone raw n hraw)
    | error e =>
      obtain ⟨m, rfl⟩ := defaultTtlSeconds_error h
      exact ⟨m, rfl⟩
  · intro n before after hbefore hafter hraw
    refine defaultTtlSeconds_eq_ok_iff.mpr ⟨_, hraw, ?_⟩
    refine ⟨before.toList, (decimal n.toNat).toList, after.toList, ?_, hbefore, hafter,
      writesNumber_decimal n.toNat⟩
    rw [String.toList_append, String.toList_append]

theorem defaultTtl_exact_greatest :
    let greatest : UInt32 := 4294967295
    let told := empty.set defaultTtl ("\t" ++ decimal greatest.toNat ++ "\u3000")
    let beyond := empty.set defaultTtl "+4294967296"
    (∀ c ∈ "\t".toList, isBlank c) ∧ (∀ c ∈ "\u3000".toList, isBlank c) ∧
    told.get? defaultTtl = some ("\t" ++ decimal greatest.toNat ++ "\u3000") ∧
    told.defaultTtlSeconds .traces = .ok greatest ∧
    ∃ m, beyond.defaultTtlSeconds .traces = .error (.metadata m) := by
  intro greatest told beyond
  have hbefore : ∀ c ∈ "\t".toList, isBlank c := List.all_eq_true.mp (by decide)
  have hafter : ∀ c ∈ "\u3000".toList, isBlank c := List.all_eq_true.mp (by decide)
  have htold : told.get? defaultTtl = some ("\t" ++ decimal greatest.toNat ++ "\u3000") := by decide
  obtain ⟨-, -, hdecimal⟩ := defaultTtl_exact told .traces
  exact ⟨hbefore, hafter, htold, hdecimal greatest _ _ hbefore hafter htold, ⟨_, rfl⟩⟩

end Options

end TraceIndex
