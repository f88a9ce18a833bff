import Mathlib.Data.List.Forall2
import TraceIndex.Text.Decimal
import TraceIndex.Text.Utf8

namespace TraceIndex

theorem mapM_eq_some_iff {β γ : Type} {f : β → Option γ} {bs : List β} {cs : List γ} :
    bs.mapM f = some cs ↔ List.Forall₂ (fun b c => f b = some c) bs cs := by
  induction bs generalizing cs with
  | nil =>
    rw [List.mapM_nil, List.forall₂_nil_left_iff]
    exact ⟨fun h => (Option.some.inj h).symm, by rintro rfl; rfl⟩
  | cons b bs ih =>
    simp only [List.mapM_cons, Option.bind_eq_bind, Option.bind_eq_some_iff,
      List.forall₂_cons_left_iff, ih]
    constructor
    · rintro ⟨c, hc, cs, hcs, heq⟩
      exact ⟨c, cs, hc, hcs, (Option.some.inj heq).symm⟩
    · rintro ⟨c, cs, hc, hcs, rfl⟩
      exact ⟨c, hc, cs, hcs, rfl⟩

theorem mapM_eq_some {β γ : Type} {f : β → Option γ} {g : β → γ} {bs : List β}
    (h : ∀ b ∈ bs, f b = some (g b)) : bs.mapM f = some (bs.map g) :=
  mapM_eq_some_iff.mpr (List.forall₂_map_right_iff.mpr (List.forall₂_same.mpr h))

theorem mem_of_mapM {β γ : Type} {f : β → Option γ} {bs : List β} {cs : List γ}
    (h : bs.mapM f = some cs) {b : β} (hb : b ∈ bs) : ∃ c ∈ cs, f b = some c := by
  obtain ⟨i, hi, rfl⟩ := List.mem_iff_getElem.mp hb
  obtain ⟨hlength, hget⟩ := List.forall₂_iff_get.mp (mapM_eq_some_iff.mp h)
  have hi' : i < cs.length := hlength ▸ hi
  exact ⟨cs[i], List.getElem_mem hi', hget i hi hi'⟩

/-- What is written one by one is read back one by one. -/
theorem mapM_written {α β : Type} {read : α → Option β} {write : β → α} {bs : List β}
    (h : ∀ b ∈ bs, read (write b) = some b) : (bs.map write).mapM read = some bs := by
  rw [List.mapM_map]
  exact (mapM_eq_some h).trans (congrArg some (List.map_id' bs))

section Runs

variable {α : Type} {p : α → Bool} {run rest : List α}

theorem takeWhile_run (hrun : ∀ a ∈ run, p a) (hrest : ∀ a ∈ rest.head?, ¬ p a) :
    (run ++ rest).takeWhile p = run := by
  rw [List.takeWhile_append_of_pos hrun]
  cases rest with
  | nil => exact List.append_nil run
  | cons a rest => rw [List.takeWhile_cons_of_neg (hrest a rfl), List.append_nil]

theorem dropWhile_run (hrun : ∀ a ∈ run, p a) (hrest : ∀ a ∈ rest.head?, ¬ p a) :
    (run ++ rest).dropWhile p = rest := by
  rw [List.dropWhile_append_of_pos hrun]
  cases rest with
  | nil => rfl
  | cons a rest => exact List.dropWhile_cons_of_neg (hrest a rfl)

end Runs

end TraceIndex

namespace TraceIndex.Utf8

theorem toNat_char {v : Nat} (valid : v < 0xD800 ∨ 0xDFFF < v ∧ v < 0x110000) :
    (Char.ofNat v).toNat = v := by
  have hvalid : v.isValidChar := valid
  rw [Char.ofNat, dif_pos hvalid]
  rfl

theorem toNat_ofNat {n : Nat} (h : n < 256) : (UInt8.ofNat n).toNat = n := by
  simp only [UInt8.toNat_ofNat']
  omega

theorem toNat_tail (n : Nat) : (UInt8.ofNat (n % 64 + 128)).toNat = n % 64 + 128 := by
  rw [toNat_ofNat]
  omega

theorem lead?_two {v : Nat} (low : 0x80 ≤ v) (high : v ≤ 0x7FF) :
    lead? (.ofNat (v / 64 % 32 + 192)) = some ⟨v / 64, 0x80, 0xBF, 0⟩ := by
  have ha : (UInt8.ofNat (v / 64 % 32 + 192)).toNat = v / 64 + 192 := by
    rw [toNat_ofNat] <;> omega
  unfold lead?
  simp only [UInt8.lt_iff_toNat_lt, ha, UInt8.reduceToNat]
  rw [if_neg (by omega), if_pos (by omega), Nat.add_sub_cancel]

/-- The second byte keeps a character apart from those of two bytes and from surrogates. -/
theorem lead?_three {v : Nat} (low : 0x800 ≤ v) (high : v ≤ 0xFFFF)
    (valid : v < 0xD800 ∨ 0xDFFF < v) :
    ∃ l, lead? (.ofNat (v / 4096 % 16 + 224)) = some l ∧ l.bits = v / 4096 ∧ l.more = 1 ∧
      l.low ≤ .ofNat (v / 64 % 64 + 128) ∧ .ofNat (v / 64 % 64 + 128) ≤ l.high := by
  have ha : (UInt8.ofNat (v / 4096 % 16 + 224)).toNat = v / 4096 + 224 := by
    rw [toNat_ofNat] <;> omega
  have hb : (UInt8.ofNat (v / 64 % 64 + 128)).toNat = v / 64 % 64 + 128 := by
    rw [toNat_tail]
  unfold lead?
  simp only [UInt8.lt_iff_toNat_lt, UInt8.le_iff_toNat_le, ← UInt8.toNat_inj, ha, hb,
    UInt8.reduceToNat]
  rw [if_neg (by omega), if_neg (by omega)]
  split
  · refine ⟨_, rfl, ?_, rfl, ?_, ?_⟩ <;> simp only [UInt8.reduceToNat] <;> omega
  · split
    · refine ⟨_, rfl, ?_, rfl, ?_, ?_⟩ <;> simp only [UInt8.reduceToNat] <;> omega
    · rw [if_pos (by omega)]
      refine ⟨_, rfl, ?_, rfl, ?_, ?_⟩ <;> simp only [UInt8.reduceToNat] <;> omega

theorem lead?_four {v : Nat} (low : 0x10000 ≤ v) (high : v < 0x110000) :
    ∃ l, lead? (.ofNat (v / 262144 % 8 + 240)) = some l ∧ l.bits = v / 262144 ∧ l.more = 2 ∧
      l.low ≤ .ofNat (v / 4096 % 64 + 128) ∧ .ofNat (v / 4096 % 64 + 128) ≤ l.high := by
  have ha : (UInt8.ofNat (v / 262144 % 8 + 240)).toNat = v / 262144 + 240 := by
    rw [toNat_ofNat] <;> omega
  have hb : (UInt8.ofNat (v / 4096 % 64 + 128)).toNat = v / 4096 % 64 + 128 := by
    rw [toNat_tail]
  unfold lead?
  simp only [UInt8.lt_iff_toNat_lt, UInt8.le_iff_toNat_le, ← UInt8.toNat_inj, ha, hb,
    UInt8.reduceToNat]
  rw [if_neg (by omega), if_neg (by omega), if_neg (by omega), if_neg (by omega),
    if_neg (by omega)]
  split
  · refine ⟨_, rfl, ?_, rfl, ?_, ?_⟩ <;> simp only [UInt8.reduceToNat] <;> omega
  · split
    · refine ⟨_, rfl, ?_, rfl, ?_, ?_⟩ <;> simp only [UInt8.reduceToNat] <;> omega
    · rw [if_pos (by omega)]
      refine ⟨_, rfl, ?_, rfl, ?_, ?_⟩ <;> simp only [UInt8.reduceToNat] <;> omega

theorem isTail_tail (n : Nat) : isTail (.ofNat (n % 64 + 128)) := by
  simp only [isTail, UInt8.le_iff_toNat_le, toNat_tail, UInt8.reduceToNat, Bool.and_eq_true,
    decide_eq_true_eq]
  omega

theorem extend_tail (bits n : Nat) : extend bits (.ofNat (n % 64 + 128)) = bits * 64 + n % 64 := by
  have h := toNat_tail n
  unfold extend
  omega

theorem not_ascii {n : Nat} (low : 0x80 ≤ n) (high : n < 0x100) : ¬ UInt8.ofNat n < 0x80 := by
  rw [UInt8.lt_iff_toNat_lt, toNat_ofNat high]
  exact Nat.not_lt.mpr low

section Pieces

variable {a b c d : UInt8} {l : Lead} (rest : Bytes)

theorem pieces_two (ha : ¬ a < 0x80) (hl : lead? a = some l) (hb : l.low ≤ b ∧ b ≤ l.high)
    (hmore : l.more = 0) :
    pieces (a :: b :: rest) = some (Char.ofNat (extend l.bits b)) :: pieces rest := by
  rw [pieces]
  simp only [if_neg ha, hl, if_pos hb, hmore, ↓reduceIte]

theorem pieces_three (ha : ¬ a < 0x80) (hl : lead? a = some l) (hb : l.low ≤ b ∧ b ≤ l.high)
    (hmore : l.more = 1) (hc : isTail c) :
    pieces (a :: b :: c :: rest) =
      some (Char.ofNat (extend (extend l.bits b) c)) :: pieces rest := by
  rw [pieces]
  simp only [if_neg ha, hl, if_pos hb, hmore, hc, Nat.one_ne_zero, ↓reduceIte]

theorem pieces_four (ha : ¬ a < 0x80) (hl : lead? a = some l) (hb : l.low ≤ b ∧ b ≤ l.high)
    (hmore : l.more = 2) (hc : isTail c) (hd : isTail d) :
    pieces (a :: b :: c :: d :: rest) =
      some (Char.ofNat (extend (extend (extend l.bits b) c) d)) :: pieces rest := by
  rw [pieces]
  simp only [if_neg ha, hl, if_pos hb, hmore, hc, hd, ↓reduceIte]
  rfl

end Pieces

theorem pieces_char (c : Char) (rest : Bytes) :
    pieces (String.utf8EncodeChar c ++ rest) = some c :: pieces rest := by
  have hc : Char.ofNat c.val.toNat = c := Char.ofNat_toNat c
  have hvalid := c.valid
  revert hc
  simp only [String.utf8EncodeChar]
  generalize hv : c.val.toNat = v at *
  have hvalid : v < 0xD800 ∨ 0xDFFF < v ∧ v < 0x110000 := hv ▸ hvalid
  intro hc
  split
  · rename_i h
    have ha : (UInt8.ofNat v).toNat = v := toNat_ofNat (by omega)
    have hascii : UInt8.ofNat v < 0x80 := by
      simp only [UInt8.lt_iff_toNat_lt, ha, UInt8.reduceToNat]
      omega
    rw [List.singleton_append, pieces, if_pos hascii, ha, hc]
  · split
    · rename_i h h'
      have hrange : (0x80 : UInt8) ≤ .ofNat (v % 64 + 128) ∧
          .ofNat (v % 64 + 128) ≤ (0xBF : UInt8) := by
        simpa [isTail] using isTail_tail v
      have hvalue : v / 64 * 64 + v % 64 = v := by omega
      have hpieces := pieces_two rest (not_ascii (by omega) (by omega)) (lead?_two (by omega) h')
        hrange rfl
      rwa [extend_tail, hvalue, hc] at hpieces
    · split
      · rename_i h h' h''
        obtain ⟨l, hl, hbits, hmore, hsecond⟩ := lead?_three (v := v) (by omega) h'' (by omega)
        have hvalue : (v / 4096 * 64 + v / 64 % 64) * 64 + v % 64 = v := by omega
        have hpieces := pieces_three rest (not_ascii (by omega) (by omega)) hl hsecond hmore
          (isTail_tail v)
        rwa [hbits, extend_tail, extend_tail, hvalue, hc] at hpieces
      · obtain ⟨l, hl, hbits, hmore, hsecond⟩ := lead?_four (v := v) (by omega) (by omega)
        have hvalue : ((v / 262144 * 64 + v / 4096 % 64) * 64 + v / 64 % 64) * 64 + v % 64 = v := by
          omega
        have hpieces := pieces_four rest (not_ascii (by omega) (by omega)) hl hsecond hmore
          (isTail_tail (v / 64)) (isTail_tail v)
        rwa [hbits, extend_tail, extend_tail, extend_tail, hvalue, hc] at hpieces

theorem pieces_encodeChars (cs : List Char) : pieces (encodeChars cs) = cs.map some := by
  induction cs with
  | nil => rfl
  | cons c cs ih =>
    rw [encodeChars, List.flatMap_cons, pieces_char, List.map_cons, ← ih]
    rfl

theorem decode?_encode (s : String) : decode? (encode s) = some s := by
  have hchars : (s.toList.map some).mapM id = some s.toList := mapM_written fun _ _ => rfl
  rw [decode?, decodeChars?, encode, pieces_encodeChars, hchars, Option.map_some,
    String.ofList_toList]

theorem utf8EncodeChar_ascii {c : Char} (h : c.toNat < 0x80) :
    String.utf8EncodeChar c = [.ofNat c.toNat] := by
  simp only [String.utf8EncodeChar]
  exact if_pos (Nat.le_of_lt_succ h)

theorem encodeChars_ascii {cs : List Char} (h : ∀ c ∈ cs, c.toNat < 0x80) :
    encodeChars cs = cs.map fun c => .ofNat c.toNat := by
  induction cs with
  | nil => rfl
  | cons c cs ih =>
    obtain ⟨hc, hcs⟩ := List.forall_mem_cons.mp h
    rw [encodeChars, List.flatMap_cons, utf8EncodeChar_ascii hc, List.map_cons, ← ih hcs]
    rfl

end TraceIndex.Utf8

namespace TraceIndex.Text

theorem isDigit_of_mem_toDigits {n : Nat} {c : Char} (h : c ∈ Nat.toDigits 10 n) : isDigit c :=
  Nat.isDigit_of_mem_toDigits (by omega) (by omega) h

theorem toNat_of_isDigit {c : Char} (h : isDigit c) : 0x30 ≤ c.toNat ∧ c.toNat ≤ 0x39 := by
  simpa [isDigit, Char.le_def, UInt32.le_iff_toNat_le] using h

theorem digits?_toDigits (n : Nat) : digits? (Nat.toDigits 10 n) = some n := by
  have hne : (Nat.toDigits 10 n).isEmpty = false := by simp
  have hall : (Nat.toDigits 10 n).all isDigit :=
    List.all_eq_true.mpr fun _ => isDigit_of_mem_toDigits
  have hvalue : (Nat.toDigits 10 n).foldl (fun n c => 10 * n + (c.toNat - 48)) 0 = n :=
    Nat.ofDigitChars_ten_toDigits
  simp only [digits?, hne, hall, hvalue, Bool.not_false, Bool.and_self, ↓reduceIte]

theorem toDigits_of_zero_head {n : Nat} {cs : List Char} (h : Nat.toDigits 10 n = '0' :: cs) :
    cs = [] := by
  induction n using Nat.strongRecOn generalizing cs with
  | ind n ih =>
    rw [Nat.toDigits_eq_if (by omega)] at h
    split at h
    · exact (List.cons.inj h).2.symm
    · rename_i hlarge
      obtain ⟨c, rest, hrest⟩ :=
        List.exists_cons_of_ne_nil (Nat.toDigits_ne_nil (n := n / 10) (b := 10))
      rw [hrest, List.cons_append] at h
      obtain ⟨rfl, -⟩ := List.cons.inj h
      obtain rfl := ih (n / 10) (by omega) hrest
      have hzero := digits?_toDigits (n / 10)
      rw [hrest] at hzero
      have : 0 = n / 10 := Option.some.inj hzero
      omega

theorem toList_decimal_ofNat (n : Nat) : (decimal n).toList = Nat.toDigits 10 n := Nat.toList_repr

theorem toList_decimal_negSucc (n : Nat) :
    (decimal (.negSucc n)).toList = '-' :: Nat.toDigits 10 (n + 1) := String.toList_ofList

theorem digits?_cons_of_not_isDigit {c : Char} (h : isDigit c = false) (cs : List Char) :
    digits? (c :: cs) = none := by
  simp [digits?, h]

theorem isDigit_of_mem {cs : List Char} {n : Nat} {c : Char} (h : digits? cs = some n)
    (hc : c ∈ cs) : isDigit c := by
  rw [digits?] at h
  split at h
  · rename_i hcs
    exact List.all_eq_true.mp ((Bool.and_eq_true _ _).mp hcs).2 c hc
  · cases h

theorem digits?_zero_cons {cs : List Char} {n : Nat} (h : digits? cs = some n) :
    digits? ('0' :: cs) = some n := by
  rw [digits?] at h
  split at h
  · rename_i hcs
    have hcs' : (!('0' :: cs).isEmpty && ('0' :: cs).all isDigit) = true := by
      rw [Bool.and_eq_true] at hcs
      rw [List.all_cons, hcs.2]
      rfl
    rw [digits?, if_pos hcs']
    exact h
  · cases h

theorem digits?_padded (width n : Nat) : digits? (padded width n).toList = some n := by
  rw [padded, String.toList_ofList]
  induction width - (Nat.toDigits 10 n).length with
  | zero => exact digits?_toDigits n
  | succ k ih => exact digits?_zero_cons ih

theorem padded_injective (width : Nat) : Function.Injective (padded width) := by
  intro m n h
  have hm := digits?_padded width m
  rw [h, digits?_padded] at hm
  exact (Option.some.inj hm).symm

def int? : List Char → Option Int
  | '-' :: cs => (digits? cs).map fun n => -(n : Int)
  | cs => (digits? cs).map fun n => (n : Int)

theorem int?_of_digits? {cs : List Char} {n : Nat} (h : digits? cs = some n) :
    int? cs = some (n : Int) := by
  unfold int?
  split
  · rw [digits?_cons_of_not_isDigit (by decide)] at h
    cases h
  · rw [h]
    rfl

theorem not_mem_decimal {c : Char} (hdigit : isDigit c = false) (hminus : c ≠ '-') (n : Int) :
    c ∉ (decimal n).toList := by
  have hdigits : ∀ n, c ∉ Nat.toDigits 10 n := fun n h =>
    Bool.false_ne_true (hdigit.symm.trans (isDigit_of_mem_toDigits h))
  cases n with
  | ofNat n =>
    rw [Int.ofNat_eq_natCast, toList_decimal_ofNat]
    exact hdigits n
  | negSucc n =>
    rw [toList_decimal_negSucc, List.mem_cons, not_or]
    exact ⟨hminus, hdigits (n + 1)⟩

theorem int?_decimal (n : Int) : int? (decimal n).toList = some n := by
  cases n with
  | ofNat n =>
    rw [Int.ofNat_eq_natCast, toList_decimal_ofNat, int?_of_digits? (digits?_toDigits n)]
  | negSucc n =>
    rw [toList_decimal_negSucc, int?, digits?_toDigits]
    rfl

theorem decimal_injective : Function.Injective decimal := by
  intro m n h
  have hm := int?_decimal m
  rw [h, int?_decimal] at hm
  exact (Option.some.inj hm).symm

end TraceIndex.Text
