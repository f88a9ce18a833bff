import Mathlib.Algebra.BigOperators.Finprod
import Mathlib.Algebra.Order.Floor.Div
import Mathlib.Data.Set.Card.Arithmetic
import Mathlib.Order.Interval.Set.Nat
import TraceIndex.Random.Bounded

namespace TraceIndex.Words

def leadingZeros (n : UInt32) : Nat := n.toBitVec.clz.toNat

/-- How many low halves of a product are accepted. -/
def slots (bound : UInt32) : Nat := bound.toNat * 2 ^ leadingZeros bound

/-- The first word whose product with the bound reaches a multiple of `2 ^ 32`. -/
def firstWord (bound result : UInt32) : Nat := (result.toNat * 2 ^ 32) ⌈/⌉ bound.toNat

variable {bound : UInt32}

theorem toNat_pos (h : bound ≠ 0) : 0 < bound.toNat :=
  Nat.pos_of_ne_zero fun hzero => h (UInt32.toNat_inj.mp hzero)

theorem leadingZeros_lt (h : bound ≠ 0) : leadingZeros bound < 32 := by
  have hbits : bound.toBitVec ≠ 0#32 := fun hzero => h (UInt32.toBitVec_inj.mp hzero)
  exact BitVec.lt_def.mp (BitVec.clz_lt_iff_ne_zero.mpr hbits)

theorem slots_range (h : bound ≠ 0) : 2 ^ 31 ≤ slots bound ∧ slots bound < 2 ^ 32 := by
  have hbits : bound.toBitVec ≠ 0#32 := fun hzero => h (UInt32.toBitVec_inj.mp hzero)
  have hlt := leadingZeros_lt h
  have hlow : 2 ^ (31 - leadingZeros bound) ≤ bound.toNat :=
    BitVec.two_pow_sub_clz_le_toNat_of_ne_zero (by decide) hbits
  have hhigh : bound.toNat < 2 ^ (32 - leadingZeros bound) := BitVec.toNat_lt_two_pow_sub_clz
  have hpos : 0 < 2 ^ leadingZeros bound := Nat.two_pow_pos _
  constructor
  · calc
      2 ^ 31 = 2 ^ (31 - leadingZeros bound) * 2 ^ leadingZeros bound := by
        rw [← Nat.pow_add, Nat.sub_add_cancel (by omega)]
      _ ≤ slots bound := Nat.mul_le_mul_right _ hlow
  · calc
      slots bound < 2 ^ (32 - leadingZeros bound) * 2 ^ leadingZeros bound :=
        Nat.mul_lt_mul_of_pos_right hhigh hpos
      _ = 2 ^ 32 := by rw [← Nat.pow_add, Nat.sub_add_cancel (by omega)]

theorem log2_eq (h : bound ≠ 0) : bound.toNat.log2 = 31 - leadingZeros bound := by
  have hbits : bound.toBitVec ≠ 0#32 := fun hzero => h (UInt32.toBitVec_inj.mp hzero)
  have hlt := leadingZeros_lt h
  apply (Nat.log2_eq_iff (toNat_pos h).ne').mpr
  constructor
  · exact BitVec.two_pow_sub_clz_le_toNat_of_ne_zero (by decide) hbits
  · have hsucc : 31 - leadingZeros bound + 1 = 32 - leadingZeros bound := by omega
    rw [hsucc]
    exact BitVec.toNat_lt_two_pow_sub_clz

theorem zone_eq (h : bound ≠ 0) : zone bound = UInt32.ofNat (slots bound) - 1 := by
  have hlt := leadingZeros_lt h
  have hshift : 31 - (31 - leadingZeros bound) = leadingZeros bound := by omega
  rw [zone, log2_eq h, hshift, Nat.shiftLeft_eq, slots]

theorem toNat_zone (h : bound ≠ 0) : (zone bound).toNat = slots bound - 1 := by
  obtain ⟨hlow, hhigh⟩ := slots_range h
  have hslots : (UInt32.ofNat (slots bound)).toNat = slots bound :=
    UInt32.toNat_ofNat_of_lt' hhigh
  have hone : (1 : UInt32) ≤ UInt32.ofNat (slots bound) := by
    rw [UInt32.le_iff_toNat_le, hslots]
    exact Nat.one_le_of_lt hlow
  rw [zone_eq h, UInt32.toNat_sub_of_le _ _ hone, hslots]
  rfl

/-- The zone as it is calculated with words alone. -/
theorem zone_eq_shift (h : bound ≠ 0) :
    zone bound = (bound <<< UInt32.ofNat (leadingZeros bound)) - 1 := by
  obtain ⟨-, hhigh⟩ := slots_range h
  have hlt := leadingZeros_lt h
  have hsmall : (UInt32.ofNat (leadingZeros bound)).toNat % 32 = leadingZeros bound := by
    rw [UInt32.toNat_ofNat_of_lt' (Nat.lt_trans hlt (by decide)), Nat.mod_eq_of_lt hlt]
  have hshift : bound <<< UInt32.ofNat (leadingZeros bound) = UInt32.ofNat (slots bound) := by
    apply UInt32.toNat_inj.mp
    rw [UInt32.toNat_shiftLeft, hsmall, Nat.shiftLeft_eq, ← slots, Nat.mod_eq_of_lt hhigh,
      UInt32.toNat_ofNat_of_lt' hhigh]
  rw [zone_eq h, hshift]

theorem accepts_iff (h : bound ≠ 0) {word : UInt32} :
    accepts bound word ↔ word.toNat * bound.toNat % 2 ^ 32 < slots bound := by
  have hpos := (slots_range h).1
  rw [accepts, decide_eq_true_iff, toNat_zone h]
  change word.toNat * bound.toNat % 2 ^ 32 ≤ _ ↔ _
  omega

theorem toNat_scaled (bound word : UInt32) :
    (scaled bound word).toNat = word.toNat * bound.toNat / 2 ^ 32 := by
  apply UInt32.toNat_ofNat_of_lt'
  apply Nat.div_lt_of_lt_mul
  exact Nat.mul_lt_mul_of_lt_of_lt word.toNat_lt bound.toNat_lt

theorem toNat_high (bound word : UInt32) :
    ((word.toUInt64 * bound.toUInt64) >>> 32).toUInt32.toNat =
      word.toNat * bound.toNat / 2 ^ 32 := by
  have hproduct : word.toNat * bound.toNat < 2 ^ 32 * 2 ^ 32 :=
    Nat.mul_lt_mul_of_lt_of_lt word.toNat_lt bound.toNat_lt
  have hhigh : word.toNat * bound.toNat / 2 ^ 32 < 2 ^ 32 := Nat.div_lt_of_lt_mul hproduct
  have hfits : word.toNat * bound.toNat < 2 ^ 64 := by omega
  have hshift : (32 : UInt64).toNat % 64 = 32 := rfl
  rw [UInt64.toNat_toUInt32, UInt64.toNat_shiftRight, UInt64.toNat_mul, UInt32.toNat_toUInt64,
    UInt32.toNat_toUInt64, hshift, Nat.mod_eq_of_lt hfits, Nat.shiftRight_eq_div_pow,
    Nat.mod_eq_of_lt hhigh]

theorem scaled_lt (h : bound ≠ 0) (word : UInt32) : scaled bound word < bound := by
  rw [UInt32.lt_iff_toNat_lt, toNat_scaled]
  apply Nat.div_lt_of_lt_mul
  exact Nat.mul_lt_mul_of_pos_right word.toNat_lt (toNat_pos h)

/-- A result is that of the words whose product lies behind its multiple of `2 ^ 32`, by no more
than the slots. -/
theorem accepts_scaled_iff (h : bound ≠ 0) {word result : UInt32} :
    accepts bound word ∧ scaled bound word = result ↔
      result.toNat * 2 ^ 32 ≤ bound.toNat * word.toNat ∧
        bound.toNat * word.toNat < result.toNat * 2 ^ 32 + slots bound := by
  have hhigh := (slots_range h).2
  rw [accepts_iff h, ← UInt32.toNat_inj, toNat_scaled, Nat.mul_comm word.toNat]
  omega

theorem between_iff (h : bound ≠ 0) {result : UInt32} (n : Nat) :
    firstWord bound result ≤ n ∧ n < firstWord bound result + 2 ^ leadingZeros bound ↔
      result.toNat * 2 ^ 32 ≤ bound.toNat * n ∧
        bound.toNat * n < result.toNat * 2 ^ 32 + slots bound := by
  have hfirst : ∀ n, firstWord bound result ≤ n ↔ result.toNat * 2 ^ 32 ≤ bound.toNat * n :=
    fun n => ceilDiv_le_iff_le_mul (toNat_pos h)
  rw [hfirst]
  apply and_congr_right
  intro hreach
  by_cases hlong : 2 ^ leadingZeros bound ≤ n
  · have hback := hfirst (n - 2 ^ leadingZeros bound)
    have hmul : bound.toNat * (n - 2 ^ leadingZeros bound) = bound.toNat * n - slots bound :=
      Nat.mul_sub ..
    have hle : slots bound ≤ bound.toNat * n := Nat.mul_le_mul_left _ hlong
    rw [hmul] at hback
    omega
  · have hle : bound.toNat * n < slots bound :=
      Nat.mul_lt_mul_of_pos_left (Nat.not_le.mp hlong) (toNat_pos h)
    omega

theorem lastWord_lt (h : bound ≠ 0) {result : UInt32} (hresult : result < bound) :
    firstWord bound result + 2 ^ leadingZeros bound ≤ 2 ^ 32 := by
  have hpos : 0 < 2 ^ leadingZeros bound := Nat.two_pow_pos _
  have hslots := (slots_range h).2
  obtain ⟨last, hlast⟩ : ∃ last, last + 1 = firstWord bound result + 2 ^ leadingZeros bound :=
    ⟨_, Nat.sub_add_cancel (by omega)⟩
  have hlt : bound.toNat * last < result.toNat * 2 ^ 32 + slots bound :=
    ((between_iff h last).mp ⟨by omega, by omega⟩).2
  have hmul : bound.toNat * last < bound.toNat * 2 ^ 32 :=
    calc
      bound.toNat * last < result.toNat * 2 ^ 32 + slots bound := hlt
      _ < result.toNat * 2 ^ 32 + 2 ^ 32 := Nat.add_lt_add_left hslots _
      _ = (result.toNat + 1) * 2 ^ 32 := (Nat.succ_mul ..).symm
      _ ≤ bound.toNat * 2 ^ 32 := Nat.mul_le_mul_right _ (UInt32.lt_iff_toNat_lt.mp hresult)
  have hword := Nat.lt_of_mul_lt_mul_left hmul
  omega

def leadingTo (bound result : UInt32) : Set UInt32 :=
  {word | accepts bound word ∧ scaled bound word = result}

theorem ncard_leadingTo (h : bound ≠ 0) {result : UInt32} (hresult : result < bound) :
    (leadingTo bound result).ncard = 2 ^ leadingZeros bound := by
  let first := firstWord bound result
  have hwords : leadingTo bound result =
      Set.preimage UInt32.toNat (Set.Ico first (first + 2 ^ leadingZeros bound)) :=
    Set.ext fun word => (accepts_scaled_iff h).trans (between_iff h word.toNat).symm
  have hrange : Set.Ico first (first + 2 ^ leadingZeros bound) ⊆ Set.range UInt32.toNat := by
    intro n hn
    have hlt : n < 2 ^ 32 := Nat.lt_of_lt_of_le hn.2 (lastWord_lt h hresult)
    exact ⟨.ofNat n, UInt32.toNat_ofNat_of_lt' hlt⟩
  rw [hwords, Set.ncard_preimage_of_injective_subset_range (fun _ _ => UInt32.toNat_inj.mp) hrange,
    Set.ncard_Ico_nat, Nat.add_sub_cancel_left]

theorem ncard_accepts (h : bound ≠ 0) : {word | accepts bound word}.ncard = slots bound := by
  let result (i : Fin bound.toNat) : UInt32 := .ofNat i
  have hresult : ∀ i, (result i).toNat = i := fun i =>
    UInt32.toNat_ofNat_of_lt' (Nat.lt_trans i.isLt bound.toNat_lt)
  have hwords : {word | accepts bound word} = ⋃ i, leadingTo bound (result i) := by
    ext word
    rw [Set.mem_iUnion]
    constructor
    · intro haccepts
      have hlt := UInt32.lt_iff_toNat_lt.mp (scaled_lt h word)
      exact ⟨⟨_, hlt⟩, haccepts, UInt32.toNat_inj.mp (hresult ⟨_, hlt⟩).symm⟩
    · rintro ⟨i, haccepts, -⟩
      exact haccepts
  have hdisjoint : Pairwise (Function.onFun Disjoint fun i => leadingTo bound (result i)) := by
    intro i j hne
    apply Set.disjoint_left.mpr
    rintro word ⟨-, hi⟩ ⟨-, hj⟩
    apply hne
    rw [← Fin.val_inj, ← hresult i, ← hresult j, ← hi, ← hj]
  have hcount : ∀ i, (leadingTo bound (result i)).ncard = 2 ^ leadingZeros bound := by
    intro i
    apply ncard_leadingTo h
    rw [UInt32.lt_iff_toNat_lt, hresult]
    exact i.isLt
  have hfinite : ∀ i, (leadingTo bound (result i)).Finite := by
    intro i
    apply Set.finite_of_ncard_pos
    rw [hcount]
    exact Nat.two_pow_pos _
  rw [hwords, Set.ncard_iUnion_of_finite hfinite hdisjoint, finsum_congr hcount,
    finsum_eq_sum_of_fintype, Finset.sum_const, Finset.card_univ, Fintype.card_fin]
  rfl

def skip (s : Words) (n : Nat) : Words := { s with taken := s.taken + n }

theorem skip_succ (s : Words) (n : Nat) : s.next.2.skip n = s.skip (n + 1) := by
  simp only [next, skip, Nat.add_assoc, Nat.add_comm 1]

theorem firstAccepted_succ (tries : Nat) (s : Words) :
    firstAccepted bound (tries + 1) s =
      if accepts bound s.next.1 then (scaled bound s.next.1, s.next.2)
      else firstAccepted bound tries s.next.2 := rfl

theorem firstAccepted_of_first {n tries : Nat} (hn : n < tries) {s : Words}
    (hfirst : accepts bound (s.skip n).next.1)
    (hbefore : ∀ m < n, ¬ accepts bound (s.skip m).next.1) :
    firstAccepted bound tries s = (scaled bound (s.skip n).next.1, s.skip (n + 1)) := by
  induction n generalizing tries s with
  | zero =>
    obtain ⟨tries, rfl⟩ := Nat.exists_eq_succ_of_ne_zero (Nat.ne_zero_of_lt hn)
    have haccepts : accepts bound s.next.1 := hfirst
    rw [firstAccepted_succ, if_pos haccepts]
    rfl
  | succ n ih =>
    obtain ⟨tries, rfl⟩ := Nat.exists_eq_succ_of_ne_zero (Nat.ne_zero_of_lt hn)
    have hrejects : ¬ accepts bound s.next.1 := hbefore 0 (Nat.succ_pos n)
    have hrest := ih (Nat.lt_of_succ_lt_succ hn) (s := s.next.2)
    simp only [skip_succ] at hrest
    rw [firstAccepted_succ, if_neg hrejects]
    exact hrest hfirst fun m hm => hbefore (m + 1) (Nat.succ_lt_succ hm)

/-- For every bound but zero, with as many zeros before its highest bit: the test for a word and its
result are the ones that are calculated with words of 32 and of 64 bits; a result is below the
bound; each number below the bound is the result of just as many accepted words, two to the number
of these zeros; at least half of all words are accepted; and what is drawn is the result of the
first of the next words that is accepted. -/
theorem results_uniform (bound : UInt32) (h : bound ≠ 0) :
    (∀ word, accepts bound word ↔
      word * bound ≤ (bound <<< UInt32.ofNat (leadingZeros bound)) - 1) ∧
    (∀ word, scaled bound word = ((word.toUInt64 * bound.toUInt64) >>> 32).toUInt32) ∧
    (∀ word, accepts bound word → scaled bound word < bound) ∧
    (∀ result < bound, {word | accepts bound word ∧ scaled bound word = result}.ncard =
      2 ^ leadingZeros bound) ∧
    2 ^ 32 ≤ 2 * {word | accepts bound word}.ncard ∧
    ∀ s n, n < period → accepts bound (s.skip n).next.1 →
      (∀ m < n, ¬ accepts bound (s.skip m).next.1) →
      below bound s = (scaled bound (s.skip n).next.1, s.skip (n + 1)) := by
  refine ⟨fun word => ?_, fun word => ?_, fun word _ => scaled_lt h word,
    fun result hresult => ncard_leadingTo h hresult, ?_,
    fun s n hn hfirst hbefore => firstAccepted_of_first hn hfirst hbefore⟩
  · rw [← zone_eq_shift h, UInt32.le_iff_toNat_le, UInt32.toNat_mul]
    exact decide_eq_true_iff
  · exact UInt32.toNat_inj.mp ((toNat_scaled bound word).trans (toNat_high bound word).symm)
  · rw [ncard_accepts h]
    have hlow := (slots_range h).1
    omega

theorem results_uniform_ten :
    let s := seeded 0
    ((10 : UInt32) ≠ 0 ∧ leadingZeros 10 = 28) ∧
    ((7 : UInt32) < 10 ∧ {word | accepts 10 word ∧ scaled 10 word = 7}.ncard = 2 ^ 28) ∧
    2 ^ 32 ≤ 2 * {word | accepts 10 word}.ncard ∧
    (0 < period ∧ accepts 10 (s.skip 0).next.1 ∧ (∀ m < 0, ¬ accepts 10 (s.skip m).next.1)) ∧
    below 10 s = (8, s.skip 1) := by
  intro s
  have zeros : leadingZeros 10 = 28 := by decide
  have first : accepts 10 (s.skip 0).next.1 := by decide +kernel
  have result : scaled 10 (s.skip 0).next.1 = 8 := by decide +kernel
  have before : ∀ m < 0, ¬ accepts 10 (s.skip m).next.1 := fun m hm => absurd hm (Nat.not_lt_zero m)
  obtain ⟨-, -, -, hcount, hhalf, hdraw⟩ := results_uniform 10 (by decide)
  have hseven := hcount 7 (by decide)
  have hbelow := hdraw s 0 (by decide) first before
  rw [zeros] at hseven
  rw [result] at hbelow
  exact ⟨⟨by decide, zeros⟩, ⟨by decide, hseven⟩, hhalf, ⟨by decide, first, before⟩, hbelow⟩

end TraceIndex.Words
