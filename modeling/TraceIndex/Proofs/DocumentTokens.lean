import TraceIndex.Proofs.Texts
import TraceIndex.Settings.Toml

namespace TraceIndex.Toml

open Text

/-- How the characters of a key may stand between double quotes. -/
inductive SpellsBasic : List Char → List Char → Prop
  | nil : SpellsBasic [] []
  | plain {c cs key} : isVisible c → c ≠ '"' → c ≠ '\\' → SpellsBasic cs key →
      SpellsBasic (c :: cs) (c :: key)
  | letter {e c cs key} : escape? e = some c → SpellsBasic cs key →
      SpellsBasic ('\\' :: e :: cs) (c :: key)
  | short {a b c d u cs key} : codePoint? [a, b, c, d] = some u → SpellsBasic cs key →
      SpellsBasic ('\\' :: 'u' :: a :: b :: c :: d :: cs) (u :: key)
  | long {a b c d e f g h u cs key} : codePoint? [a, b, c, d, e, f, g, h] = some u →
      SpellsBasic cs key →
      SpellsBasic ('\\' :: 'U' :: a :: b :: c :: d :: e :: f :: g :: h :: cs) (u :: key)

inductive SpellsKey : List Char → String → Prop
  | bare {cs} : cs ≠ [] → (∀ c ∈ cs, isBare c) → SpellsKey cs (String.ofList cs)
  | literal {cs} : (∀ c ∈ cs, isVisible c ∧ c ≠ '\'') →
      SpellsKey ('\'' :: (cs ++ ['\''])) (String.ofList cs)
  | basic {cs key} : SpellsBasic cs key → SpellsKey ('"' :: (cs ++ ['"'])) (String.ofList key)

/-- Digits, between any two of which an underscore may stand, and the number that they write. -/
inductive Grouped : List Char → Nat → Prop
  | digit {c} : isDigit c → Grouped [c] (c.toNat - '0'.toNat)
  | next {cs n c} : Grouped cs n → isDigit c → Grouped (cs ++ [c]) (10 * n + (c.toNat - '0'.toNat))
  | apart {cs n c} : Grouped cs n → isDigit c →
      Grouped (cs ++ ['_', c]) (10 * n + (c.toNat - '0'.toNat))

def Unsigned (cs : List Char) (n : Nat) : Prop := Grouped cs n ∧ (cs.head? = some '0' → cs = ['0'])

inductive Decimal : List Char → Int → Prop
  | plain {cs n} : Unsigned cs n → Decimal cs n
  | plus {cs n} : Unsigned cs n → Decimal ('+' :: cs) n
  | minus {cs n} : Unsigned cs n → Decimal ('-' :: cs) (-n)

def Spaces (cs : List Char) : Prop := ∀ c ∈ cs, isSpace c

instance (cs : List Char) : Decidable (Spaces cs) :=
  decidable_of_iff (cs.all isSpace) List.all_eq_true

theorem toNat_of_isBare {c : Char} (h : isBare c) : 0x2D ≤ c.toNat ∧ c.toNat ≤ 0x7A := by
  simp only [isBare, isDigit, Bool.or_eq_true, Bool.and_eq_true, decide_eq_true_eq, Char.le_def,
    UInt32.le_iff_toNat_le, ← Char.toNat_inj] at h
  change ((((65 ≤ c.toNat ∧ c.toNat ≤ 90) ∨ 97 ≤ c.toNat ∧ c.toNat ≤ 122) ∨
    48 ≤ c.toNat ∧ c.toNat ≤ 57) ∨ c.toNat = 95) ∨ c.toNat = 45 at h
  omega

theorem isVisible_of_isBare {c : Char} (h : isBare c) : isVisible c := by
  obtain ⟨hlow, hhigh⟩ := toNat_of_isBare h
  simp only [isVisible, Bool.or_eq_true, Bool.and_eq_true, decide_eq_true_eq, Char.le_def,
    UInt32.le_iff_toNat_le, ne_eq, ← Char.toNat_inj]
  change c.toNat = 9 ∨ 32 ≤ c.toNat ∧ ¬ c.toNat = 127
  omega

theorem isValueChar_of_isBare {c : Char} (h : isBare c) : isValueChar c := by
  have hne : ∀ d, isBare d = false → c ≠ d := by
    rintro d hd rfl
    rw [h] at hd
    cases hd
  simp [isValueChar, isSpace, hne ' ' (by decide), hne '\t' (by decide), hne '#' (by decide)]

theorem isBare_of_isDigit {c : Char} (h : isDigit c) : isBare c := by
  simp [isBare, h]

theorem SpellsKey.head {cs : List Char} {key : String} (h : SpellsKey cs key) :
    ∃ c rest, cs = c :: rest ∧ isValueChar c ∧ c.toNat < 0x80 := by
  cases h with
  | bare hne hcs =>
    obtain ⟨c, rest, rfl⟩ := List.exists_cons_of_ne_nil hne
    have hc := hcs c List.mem_cons_self
    have hlow : c.toNat < 0x80 := Nat.lt_of_le_of_lt (toNat_of_isBare hc).2 (by decide)
    exact ⟨c, rest, rfl, isValueChar_of_isBare hc, hlow⟩
  | literal _ => exact ⟨'\'', _, rfl, by decide, by decide⟩
  | basic _ => exact ⟨'"', _, rfl, by decide, by decide⟩

theorem literalKey?_literal {cs : List Char} (h : ∀ c ∈ cs, isVisible c ∧ c ≠ '\'')
    (seen rest : List Char) :
    literalKey? seen (cs ++ '\'' :: rest) = some (String.ofList (seen.reverse ++ cs), rest) := by
  induction cs generalizing seen with
  | nil => rw [List.nil_append, List.append_nil, literalKey?]
  | cons c cs ih =>
    obtain ⟨⟨hvisible, hc⟩, hcs⟩ := List.forall_mem_cons.mp h
    rw [List.cons_append, literalKey?.eq_3 _ _ _ hc, if_pos hvisible, ih hcs, List.reverse_cons,
      List.append_assoc, List.singleton_append]

theorem basicKey?_basic {cs key : List Char} (h : SpellsBasic cs key) (seen rest : List Char) :
    basicKey? seen (cs ++ '"' :: rest) = some (String.ofList (seen.reverse ++ key), rest) := by
  have hmore (seen : List Char) (u : Char) (key : List Char) :
      (u :: seen).reverse ++ key = seen.reverse ++ u :: key := by
    simp
  induction h generalizing seen with
  | nil => rw [List.nil_append, List.append_nil, basicKey?]
  | @plain c cs key hvisible hquote hslash _ ih =>
    rw [List.cons_append, basicKey?.eq_6 _ _ _ hquote (fun _ _ _ _ _ h => absurd h hslash)
      (fun _ _ _ _ _ _ _ _ _ h => absurd h hslash) (fun _ _ h => absurd h hslash),
      if_pos ⟨hvisible, hslash⟩, ih, hmore]
  | @letter e c cs key he _ ih =>
    have hshort : e ≠ 'u' := by
      rintro rfl
      cases he
    have hlong : e ≠ 'U' := by
      rintro rfl
      cases he
    have hstep := basicKey?.eq_5 seen e (cs ++ '"' :: rest) (fun _ _ _ _ _ h => absurd h hshort)
      (fun _ _ _ _ _ _ _ _ _ h => absurd h hlong)
    rw [he] at hstep
    exact hstep.trans ((ih _).trans (by rw [hmore]))
  | @short a b c d u cs key hu _ ih =>
    have hstep := basicKey?.eq_3 seen a b c d (cs ++ '"' :: rest)
    rw [hu] at hstep
    exact hstep.trans ((ih _).trans (by rw [hmore]))
  | @long a b c d e f g h u cs key hu _ ih =>
    have hstep := basicKey?.eq_4 seen a b c d e f g h (cs ++ '"' :: rest)
    rw [hu] at hstep
    exact hstep.trans ((ih _).trans (by rw [hmore]))

theorem skipSpaces_append {gap rest : List Char} (hgap : Spaces gap)
    (hrest : ∀ c ∈ rest.head?, ¬ isSpace c) : skipSpaces (gap ++ rest) = rest :=
  dropWhile_run hgap hrest

theorem key?_spelled {cs rest : List Char} {key : String} (h : SpellsKey cs key)
    (hrest : ∀ c ∈ rest.head?, ¬ isBare c) : key? (cs ++ rest) = some (key, rest) := by
  cases h with
  | bare hne hcs =>
    obtain ⟨c, tail, rfl⟩ := List.exists_cons_of_ne_nil hne
    have hc := hcs c List.mem_cons_self
    have hquote : c ≠ '"' := by
      rintro rfl
      cases hc
    have hsingle : c ≠ '\'' := by
      rintro rfl
      cases hc
    rw [key?.eq_3 (c :: tail ++ rest) (fun _ heq => hquote (List.cons.inj heq).1)
      (fun _ heq => hsingle (List.cons.inj heq).1)]
    simp only [takeWhile_run hcs hrest, dropWhile_run hcs hrest, List.isEmpty_cons,
      Bool.false_eq_true, ↓reduceIte]
  | literal hcs =>
    rw [List.cons_append, List.append_assoc, List.singleton_append]
    exact literalKey?_literal hcs [] rest
  | basic hcs =>
    rw [List.cons_append, List.append_assoc, List.singleton_append]
    exact basicKey?_basic hcs [] rest

theorem hexValue?_of_isDigit {c : Char} (h : isDigit c) :
    (Bytes.hexValue? c).filter (· < 10) = some (c.toNat - '0'.toNat) := by
  obtain ⟨hlow, hhigh⟩ := toNat_of_isDigit h
  have hrange : '0' ≤ c ∧ c ≤ '9' := by simpa [isDigit] using h
  have hvalue : Bytes.hexValue? c = some (c.toNat - '0'.toNat) := if_pos hrange
  have hlt : c.toNat - '0'.toNat < 10 := by
    change c.toNat - 48 < 10
    omega
  rw [hvalue, Option.filter_some, if_pos (decide_eq_true hlt)]

section Digits

variable {c : Char} (h : isDigit c) (v : Nat)

include h

theorem digitsFrom?_last : digitsFrom? 10 v [c] = some (10 * v + (c.toNat - '0'.toNat)) := by
  simp only [digitsFrom?, hexValue?_of_isDigit h, Nat.mul_comm]

theorem digitsFrom?_digit {d : Char} (hd : isDigit d) (rest : List Char) :
    digitsFrom? 10 v (c :: d :: rest) =
      digitsFrom? 10 (10 * v + (c.toNat - '0'.toNat)) (d :: rest) := by
  have hbar : d ≠ '_' := by
    rintro rfl
    cases hd
  rw [digitsFrom?.eq_2, hexValue?_of_isDigit h, Nat.mul_comm]
  simp only
  split
  · rename_i heq
    cases heq
  · rename_i heq
    exact absurd (List.cons.inj heq).1 hbar
  · rfl

theorem digitsFrom?_apart (rest : List Char) :
    digitsFrom? 10 v (c :: '_' :: rest) = digitsFrom? 10 (10 * v + (c.toNat - '0'.toNat)) rest := by
  rw [digitsFrom?.eq_2, hexValue?_of_isDigit h, Nat.mul_comm]
  rfl

end Digits

/-- Digits are read up to their end, and what is behind them from their number on. -/
theorem Grouped.digitsFrom? {cs : List Char} {n : Nat} (h : Grouped cs n) :
    digitsFrom? 10 0 cs = some n ∧
    (∀ d rest, isDigit d → digitsFrom? 10 0 (cs ++ d :: rest) = digitsFrom? 10 n (d :: rest)) ∧
    ∀ rest, digitsFrom? 10 0 (cs ++ '_' :: rest) = digitsFrom? 10 n rest := by
  induction h with
  | digit hc =>
    have hzero : ∀ n, 10 * 0 + n = n := Nat.zero_add
    refine ⟨?_, fun d rest hd => ?_, fun rest => ?_⟩
    · rw [digitsFrom?_last hc, hzero]
    · rw [List.singleton_append, digitsFrom?_digit hc 0 hd, hzero]
    · rw [List.singleton_append, digitsFrom?_apart hc, hzero]
  | @next cs n c _ hc ih =>
    obtain ⟨-, ih, -⟩ := ih
    refine ⟨?_, fun d rest hd => ?_, fun rest => ?_⟩
    · rw [ih c [] hc, digitsFrom?_last hc]
    · rw [List.append_assoc, List.singleton_append, ih c _ hc, digitsFrom?_digit hc n hd]
    · rw [List.append_assoc, List.singleton_append, ih c _ hc, digitsFrom?_apart hc]
  | @apart cs n c _ hc ih =>
    obtain ⟨-, -, ih⟩ := ih
    refine ⟨?_, fun d rest hd => ?_, fun rest => ?_⟩
    · rw [ih, digitsFrom?_last hc]
    · rw [List.append_assoc, List.cons_append, List.singleton_append, ih, digitsFrom?_digit hc n hd]
    · rw [List.append_assoc, List.cons_append, List.singleton_append, ih, digitsFrom?_apart hc]

theorem Grouped.head {cs : List Char} {n : Nat} (h : Grouped cs n) :
    ∃ c rest, cs = c :: rest ∧ isDigit c := by
  induction h with
  | digit hc => exact ⟨_, [], rfl, hc⟩
  | next _ _ ih | apart _ _ ih =>
    obtain ⟨c, rest, rfl, hc⟩ := ih
    exact ⟨c, _, rfl, hc⟩

theorem Unsigned.read {cs : List Char} {n : Nat} (h : Unsigned cs n) :
    decimalDigits? cs = some n := by
  unfold decimalDigits?
  split
  · exact absurd (h.2 rfl) (by simp)
  · exact h.1.digitsFrom?.1

theorem Decimal.read {cs : List Char} {n : Int} (h : Decimal cs n) (hn : isInteger n) :
    integer? cs = some n := by
  have hread : ∀ {cs : List Char} {n : Nat}, Unsigned cs n →
      (do pure ((← decimalDigits? cs) : Int)) = some (n : Int) := fun h =>
    Option.bind_eq_some_iff.mpr ⟨_, h.read, rfl⟩
  cases h with
  | @plain cs n h =>
    obtain ⟨c, rest, rfl, hc⟩ := h.1.head
    have hzero : ∀ d rest', c :: rest ≠ '0' :: d :: rest' := by
      intro d rest' heq
      obtain ⟨rfl, rfl⟩ := List.cons.inj heq
      exact absurd (h.2 rfl) (by simp)
    have hplus : ∀ rest', c :: rest ≠ '+' :: rest' := by
      rintro _ heq
      obtain ⟨rfl, -⟩ := List.cons.inj heq
      cases hc
    have hminus : ∀ rest', c :: rest ≠ '-' :: rest' := by
      rintro _ heq
      obtain ⟨rfl, -⟩ := List.cons.inj heq
      cases hc
    rw [integer?.eq_6 _ (hzero 'x') (hzero 'o') (hzero 'b') hplus hminus]
    exact Option.bind_eq_some_iff.mpr ⟨n, hread h, if_pos hn⟩
  | plus h =>
    rw [integer?]
    exact Option.bind_eq_some_iff.mpr ⟨_, hread h, if_pos hn⟩
  | minus h =>
    rw [integer?]
    exact Option.bind_eq_some_iff.mpr ⟨_, Option.map_eq_some_iff.mpr ⟨_, hread h, rfl⟩, if_pos hn⟩

theorem isVisible_of_isSpace {c : Char} (h : isSpace c) : isVisible c := by
  obtain rfl | rfl : c = ' ' ∨ c = '\t' := by simpa [isSpace] using h
  · decide
  · decide

theorem toNat_of_isSpace {c : Char} (h : isSpace c) : c.toNat < 0x80 := by
  obtain rfl | rfl : c = ' ' ∨ c = '\t' := by simpa [isSpace] using h
  · decide
  · decide

theorem isVisible_of_hexValue? {c : Char} (h : (Bytes.hexValue? c).isSome) : isVisible c := by
  have hbare : isBare c := by
    simp only [isBare, isDigit, Bool.or_eq_true, Bool.and_eq_true, decide_eq_true_eq]
    unfold Bytes.hexValue? at h
    split at h
    · rename_i hdigit
      exact .inl (.inl (.inr hdigit))
    · split at h
      · rename_i hlower
        exact .inl (.inl (.inl (.inr ⟨hlower.1, Char.le_trans hlower.2 (by decide)⟩)))
      · split at h
        · rename_i hupper
          exact .inl (.inl (.inl (.inl ⟨hupper.1, Char.le_trans hupper.2 (by decide)⟩)))
        · cases h
  exact isVisible_of_isBare hbare

theorem isVisible_of_codePoint? {digits : List Char} {u : Char} (h : codePoint? digits = some u) :
    ∀ c ∈ digits, isVisible c := by
  obtain ⟨n, hn, -⟩ := Option.bind_eq_some_iff.mp h
  clear h
  generalize 0 = start at hn
  induction digits generalizing start with
  | nil => rintro _ ⟨⟩
  | cons d digits ih =>
    rw [List.foldlM_cons] at hn
    obtain ⟨m, hm, hn⟩ := Option.bind_eq_some_iff.mp hn
    obtain ⟨v, hv, -⟩ := Option.map_eq_some_iff.mp hm
    refine List.forall_mem_cons.mpr ⟨isVisible_of_hexValue? ?_, ih m hn⟩
    rw [hv]
    rfl

theorem isVisible_of_escape? {e c : Char} (h : escape? e = some c) : isVisible e := by
  unfold escape? at h
  split at h <;> first | decide | cases h

theorem SpellsBasic.visible {cs key : List Char} (h : SpellsBasic cs key) :
    ∀ c ∈ cs, isVisible c := by
  have hslash : isVisible '\\' := by decide
  induction h with
  | nil => rintro _ ⟨⟩
  | plain hc _ _ _ ih => exact List.forall_mem_cons.mpr ⟨hc, ih⟩
  | letter he _ ih =>
    simp only [List.forall_mem_cons]
    exact ⟨hslash, isVisible_of_escape? he, ih⟩
  | short hu _ ih =>
    have hdigits := isVisible_of_codePoint? hu
    simp only [List.forall_mem_cons] at hdigits ⊢
    obtain ⟨ha, hb, hc, hd, -⟩ := hdigits
    exact ⟨hslash, by decide, ha, hb, hc, hd, ih⟩
  | long hu _ ih =>
    have hdigits := isVisible_of_codePoint? hu
    simp only [List.forall_mem_cons] at hdigits ⊢
    obtain ⟨ha, hb, hc, hd, he, hf, hg, hh, -⟩ := hdigits
    exact ⟨hslash, by decide, ha, hb, hc, hd, he, hf, hg, hh, ih⟩

theorem SpellsKey.visible {cs : List Char} {key : String} (h : SpellsKey cs key) :
    ∀ c ∈ cs, isVisible c := by
  cases h with
  | bare _ hcs => exact fun c hc => isVisible_of_isBare (hcs c hc)
  | literal hcs =>
    simp only [List.forall_mem_cons, List.forall_mem_append]
    exact ⟨by decide, fun c hc => (hcs c hc).1, by decide, by simp⟩
  | basic hcs =>
    simp only [List.forall_mem_cons, List.forall_mem_append]
    exact ⟨by decide, hcs.visible, by decide, by simp⟩

theorem Grouped.bare {cs : List Char} {n : Nat} (h : Grouped cs n) : ∀ c ∈ cs, isBare c := by
  induction h with
  | digit hc => exact List.forall_mem_singleton.mpr (isBare_of_isDigit hc)
  | next _ hc ih =>
    exact List.forall_mem_append.mpr
      ⟨ih, List.forall_mem_singleton.mpr (isBare_of_isDigit hc)⟩
  | apart _ hc ih =>
    exact List.forall_mem_append.mpr ⟨ih, List.forall_mem_cons.mpr
      ⟨by decide, List.forall_mem_singleton.mpr (isBare_of_isDigit hc)⟩⟩

theorem Decimal.marks {cs : List Char} {n : Int} (h : Decimal cs n) :
    ∀ c ∈ cs, isBare c ∨ c = '+' := by
  cases h with
  | plain h => exact fun c hc => .inl (h.1.bare c hc)
  | plus h => exact List.forall_mem_cons.mpr ⟨.inr rfl, fun c hc => .inl (h.1.bare c hc)⟩
  | minus h => exact List.forall_mem_cons.mpr ⟨.inl (by decide), fun c hc => .inl (h.1.bare c hc)⟩

theorem Decimal.head {cs : List Char} {n : Int} (h : Decimal cs n) :
    ∃ c rest, cs = c :: rest ∧ isValueChar c := by
  have hchars := h.marks
  have hne : cs ≠ [] := by
    rintro rfl
    cases h with
    | plain h =>
      obtain ⟨c, rest, hcs, -⟩ := h.1.head
      cases hcs
  obtain ⟨c, rest, rfl⟩ := List.exists_cons_of_ne_nil hne
  refine ⟨c, rest, rfl, ?_⟩
  obtain hc | rfl := hchars c List.mem_cons_self
  · exact isValueChar_of_isBare hc
  · decide

theorem Spaces.visible {cs : List Char} (h : Spaces cs) : ∀ c ∈ cs, isVisible c :=
  fun c hc => isVisible_of_isSpace (h c hc)

theorem not_isSpace_of_isValueChar {c : Char} (h : isValueChar c) : ¬ isSpace c := by
  intro hspace
  simp [isValueChar, hspace] at h

theorem head?_spaces {gap rest : List Char} {c : Char} (hgap : Spaces gap)
    (hc : c ∈ (gap ++ rest).head?) : isSpace c ∨ c ∈ rest.head? := by
  cases gap with
  | nil => exact .inr hc
  | cons d gap =>
    cases hc
    exact .inl (hgap c List.mem_cons_self)

theorem not_isBare_of_isSpace {c : Char} (h : isSpace c) : ¬ isBare c := fun hbare =>
  not_isSpace_of_isValueChar (isValueChar_of_isBare hbare) h

theorem grouped_toDigits (n : Nat) : Grouped (Nat.toDigits 10 n) n := by
  induction n using Nat.strongRecOn with
  | ind n ih =>
    have hdigit : ∀ d < 10,
        isDigit (Nat.digitChar d) ∧ (Nat.digitChar d).toNat - '0'.toNat = d := by
      decide
    rw [Nat.toDigits_eq_if (by omega)]
    split
    · rename_i hsmall
      obtain ⟨hd, hvalue⟩ := hdigit n hsmall
      have hgrouped := Grouped.digit hd
      rwa [hvalue] at hgrouped
    · obtain ⟨hd, hvalue⟩ := hdigit (n % 10) (by omega)
      have hgrouped := (ih (n / 10) (by omega)).next hd
      rwa [hvalue, Nat.div_add_mod] at hgrouped

theorem unsigned_toDigits (n : Nat) : Unsigned (Nat.toDigits 10 n) n := by
  refine ⟨grouped_toDigits n, fun hzero => ?_⟩
  obtain ⟨cs, hcs⟩ := List.head?_eq_some_iff.mp hzero
  rw [hcs, toDigits_of_zero_head hcs]

theorem decimal_text (n : Int) : Decimal (Text.decimal n).toList n := by
  cases n with
  | ofNat n =>
    rw [Int.ofNat_eq_natCast, toList_decimal_ofNat]
    exact .plain (unsigned_toDigits n)
  | negSucc n =>
    rw [toList_decimal_negSucc]
    exact .minus (unsigned_toDigits (n + 1))

end TraceIndex.Toml
