import TraceIndex.Json.Form
import TraceIndex.Json.Reader
import TraceIndex.Proofs.Texts

namespace TraceIndex.Json

/-- What may stand between the quotes of a string. Escapes need not name characters. -/
inductive Inside : Bytes → Prop
  | nil : Inside []
  | plain {b rest} : b ≠ quote → b ≠ backslash → ¬ b < 0x20 → Inside rest → Inside (b :: rest)
  | letter {e b rest} : unescapeLetter? e = some b → Inside rest → Inside (backslash :: e :: rest)
  | unit {a b c d n rest} : unit? a b c d = some n → Inside rest →
      Inside (backslash :: letterU :: a :: b :: c :: d :: rest)

/-- How the bytes of a text may be spelled between quotes. -/
inductive Spells : Bytes → Bytes → Prop
  | nil : Spells [] []
  | plain {b rest text} : b ≠ quote → b ≠ backslash → ¬ b < 0x20 → Spells rest text →
      Spells (b :: rest) (b :: text)
  | letter {e b rest text} : unescapeLetter? e = some b → Spells rest text →
      Spells (backslash :: e :: rest) (b :: text)
  | unit {a b c d n rest text} : unit? a b c d = some n → n < 0xD800 ∨ 0xE000 ≤ n →
      Spells rest text →
      Spells (backslash :: letterU :: a :: b :: c :: d :: rest)
        (String.utf8EncodeChar (Char.ofNat n) ++ text)
  | pair {a b c d high e f g h low rest text} : unit? a b c d = some high →
      isHighSurrogate high → unit? e f g h = some low → isLowSurrogate low → Spells rest text →
      Spells (backslash :: letterU :: a :: b :: c :: d ::
          backslash :: letterU :: e :: f :: g :: h :: rest)
        (String.utf8EncodeChar (fromSurrogates high low) ++ text)

inductive Quoted : Bytes → Bytes → Prop
  | kept {inside} : Inside inside → Quoted inside (quote :: (inside ++ [quote]))
  | spelled {inside other text} : Spells inside text → Spells other text →
      Quoted inside (quote :: (other ++ [quote]))

theorem ne_letterU {e b : UInt8} (h : unescapeLetter? e = some b) : e ≠ letterU := by
  rintro rfl
  have hnone : unescapeLetter? letterU = none := by decide
  rw [hnone] at h
  cases h

theorem inside?_self {b : UInt8} (hquote : b ≠ quote) (hslash : b ≠ backslash) (hlow : ¬ b < 0x20)
    (seen rest : Bytes) : inside? seen (b :: rest) = inside? (b :: seen) rest := by
  rw [inside?.eq_5 _ _ _ hquote (fun _ _ _ _ _ h => absurd h hslash)
    (fun _ _ h => absurd h hslash), if_neg hlow]

theorem inside?_letter {letter b : UInt8} (h : unescapeLetter? letter = some b)
    (seen rest : Bytes) :
    inside? seen (backslash :: letter :: rest) = inside? (letter :: backslash :: seen) rest :=
  (inside?.eq_4 seen letter rest fun _ _ _ _ _ he => absurd he (ne_letterU h)).trans (by rw [h])

theorem inside?_unit {a b c d : UInt8} {n : Nat} (hunit : unit? a b c d = some n)
    (seen rest : Bytes) :
    inside? seen (backslash :: letterU :: a :: b :: c :: d :: rest) =
      inside? (d :: c :: b :: a :: letterU :: backslash :: seen) rest :=
  (inside?.eq_3 seen a b c d rest).trans (by rw [hunit])

theorem unescape?_self {b : UInt8} (hslash : b ≠ backslash) (rest : Bytes) :
    unescape? (b :: rest) = (unescape? rest).map (b :: ·) :=
  unescape?.eq_4 b rest (fun _ _ _ _ _ h => absurd h hslash) fun _ _ h => absurd h hslash

theorem unescape?_letter {letter b : UInt8} (h : unescapeLetter? letter = some b) (rest : Bytes) :
    unescape? (backslash :: letter :: rest) = (unescape? rest).map (b :: ·) :=
  (unescape?.eq_3 letter rest fun _ _ _ _ _ he => absurd he (ne_letterU h)).trans (by rw [h])

theorem Inside.read {inside : Bytes} (h : Inside inside) (seen rest : Bytes) :
    inside? seen (inside ++ quote :: rest) = some (seen.reverse ++ inside, rest) := by
  induction h generalizing seen with
  | nil =>
    rw [List.append_nil]
    exact inside?.eq_2 seen rest
  | plain hquote hslash hlow _ ih =>
    rw [List.cons_append, inside?_self hquote hslash hlow, ih]
    simp
  | letter he _ ih =>
    simp only [List.cons_append]
    rw [inside?_letter he, ih]
    simp
  | unit hunit _ ih =>
    simp only [List.cons_append]
    rw [inside?_unit hunit, ih]
    simp

theorem Spells.inside {inside text : Bytes} (h : Spells inside text) : Inside inside := by
  induction h with
  | nil => exact .nil
  | plain hquote hslash hlow _ ih => exact .plain hquote hslash hlow ih
  | letter he _ ih => exact .letter he ih
  | unit hunit _ _ ih => exact .unit hunit ih
  | pair hunit _ hunit' _ _ ih => exact .unit hunit (.unit hunit' ih)

theorem Spells.unescape? {inside text : Bytes} (h : Spells inside text) :
    unescape? inside = some text := by
  induction h with
  | nil => rfl
  | plain _ hslash _ _ ih => rw [unescape?_self hslash, ih, Option.map_some]
  | letter he _ ih => rw [unescape?_letter he, ih, Option.map_some]
  | @unit a b c d n rest text hunit hn _ ih =>
    have hhigh : isHighSurrogate n = false := by
      simp only [isHighSurrogate, Bool.and_eq_false_iff, decide_eq_false_iff_not]
      omega
    have hlow : isLowSurrogate n = false := by
      simp only [isLowSurrogate, Bool.and_eq_false_iff, decide_eq_false_iff_not]
      omega
    refine (unescape?.eq_2 a b c d rest).trans ?_
    simp only [hunit, hhigh, hlow, ih, Bool.false_eq_true, ↓reduceIte, Option.map_some]
  | @pair a b c d high e f g h low rest text hunit hhigh hunit' hlow _ ih =>
    refine (unescape?.eq_2 a b c d _).trans ?_
    simp only [hunit, hhigh, ↓reduceIte]
    split
    · rename_i heq
      simp only [List.cons.injEq] at heq
      obtain ⟨-, -, rfl, rfl, rfl, rfl, rfl⟩ := heq
      simp only [hunit', hlow, ih, ↓reduceIte, Option.map_some]
    · rename_i hne
      exact absurd rfl (hne e f g h rest)

/-- A string is read up to its last quote, as one that spells the same text. -/
theorem Quoted.read {inside bytes : Bytes} (h : Quoted inside bytes) (rest : Bytes) :
    ∃ other, unescape? inside = unescape? other ∧ bytes = quote :: (other ++ [quote]) ∧
      inside? [] (other ++ quote :: rest) = some (other, rest) := by
  cases h with
  | kept hinside => exact ⟨inside, rfl, rfl, hinside.read [] rest⟩
  | spelled hspells hother =>
    exact ⟨_, hspells.unescape?.trans hother.unescape?.symm, rfl, hother.inside.read [] rest⟩

theorem lookup_shortEscapes {b letter : UInt8} (h : shortEscapes.lookup b = some letter) :
    unescapeLetter? letter = some b := by
  have hall : shortEscapes.all fun p => unescapeLetter? p.2 = some p.1 := by decide
  obtain ⟨l₁, l₂, hmem, -⟩ := List.lookup_eq_some_iff.mp h
  exact of_decide_eq_true (List.all_eq_true.mp hall (b, letter) (hmem ▸ by simp))

def digit (n : Nat) : UInt8 := .ofNat (Nat.digitChar n).toNat

theorem hexValue?_digit {n : Nat} (h : n < 16) : hexValue? (digit n) = some n := by
  have hall : ∀ n < 16, hexValue? (digit n) = some n := by decide
  exact hall n h

theorem ascii_hex (b : UInt8) :
    ascii (Bytes.hex [b]) = [digit (b.toNat / 16), digit (b.toNat % 16)] := by
  have hall : ∀ n < 16, (Nat.digitChar n).toNat < 0x80 := by decide
  have hb := b.toNat_lt
  have hdigits : ∀ c ∈ Bytes.hexDigits b, c.toNat < 0x80 := by
    simp only [Bytes.hexDigits, List.forall_mem_cons, List.not_mem_nil, false_implies,
      implies_true, and_true]
    exact ⟨hall _ (by omega), hall _ (by omega)⟩
  rw [ascii, Utf8.encode, Bytes.hex, String.toList_ofList, List.flatMap_singleton,
    Utf8.encodeChars_ascii hdigits]
  rfl

theorem unit?_digits (b : UInt8) :
    unit? zero zero (digit (b.toNat / 16)) (digit (b.toNat % 16)) = some b.toNat := by
  have hb := b.toNat_lt
  have hzero : hexValue? zero = some 0 := by decide
  have hvalue : ((0 * 16 + 0) * 16 + b.toNat / 16) * 16 + b.toNat % 16 = b.toNat := by omega
  simp only [unit?, hzero, hexValue?_digit (show b.toNat / 16 < 16 by omega),
    hexValue?_digit (show b.toNat % 16 < 16 by omega), Option.bind_eq_bind, Option.bind_some,
    Option.pure_def, hvalue]

theorem escapeByte_cases (b : UInt8) :
    (escapeByte b = [b] ∧ b ≠ quote ∧ b ≠ backslash ∧ ¬ b < 0x20) ∨
    (∃ letter, escapeByte b = [backslash, letter] ∧ unescapeLetter? letter = some b) ∨
    (b < 0x20 ∧ escapeByte b =
      [backslash, letterU, zero, zero, digit (b.toNat / 16), digit (b.toNat % 16)]) := by
  unfold escapeByte
  split
  · rename_i letter hlookup
    exact .inr (.inl ⟨letter, rfl, lookup_shortEscapes hlookup⟩)
  · rename_i hlookup
    split
    · rename_i hlow
      exact .inr (.inr ⟨hlow, by rw [ascii_hex]⟩)
    · rename_i hlow
      refine .inl ⟨rfl, ?_, ?_, hlow⟩
      · rintro rfl
        simp [shortEscapes] at hlookup
      · rintro rfl
        simp [shortEscapes] at hlookup

theorem spells_flatMap (bytes : Bytes) : Spells (bytes.flatMap escapeByte) bytes := by
  induction bytes with
  | nil => exact .nil
  | cons b bytes ih =>
    rw [List.flatMap_cons]
    obtain ⟨hescape, hquote, hslash, hlow⟩ | ⟨letter, hescape, hletter⟩ | ⟨hlow, hescape⟩ :=
      escapeByte_cases b
    · rw [hescape]
      exact .plain hquote hslash hlow ih
    · rw [hescape]
      exact .letter hletter ih
    · have hn : b.toNat < 0x20 := UInt8.lt_iff_toNat_lt.mp hlow
      have hchar : String.utf8EncodeChar (Char.ofNat b.toNat) = [b] := by
        have htoNat : (Char.ofNat b.toNat).toNat = b.toNat := Utf8.toNat_char (.inl (by omega))
        rw [Utf8.utf8EncodeChar_ascii (by omega), htoNat, UInt8.ofNat_toNat]
      have hspells := Spells.unit (unit?_digits b) (.inl (by omega)) ih
      rw [hchar] at hspells
      rw [hescape]
      exact hspells

theorem spells_escape (s : String) : Spells (escape s) (Utf8.encode s) :=
  spells_flatMap (Utf8.encode s)

theorem inside?_escape (s : String) (rest : Bytes) :
    inside? [] (escape s ++ quote :: rest) = some (escape s, rest) :=
  (spells_escape s).inside.read [] rest

theorem stringText?_escape (s : String) : stringText? (escape s) = some s := by
  rw [stringText?, (spells_escape s).unescape?, Option.bind_some, Utf8.decode?_encode]

def Digits (ds : Bytes) : Prop := ds ≠ [] ∧ ∀ d ∈ ds, isDigit d

def Whole (ds : Bytes) : Prop := Digits ds ∧ (ds.head? = some zero → ds = [zero])

def Fraction (part : Bytes) : Prop := part = [] ∨ ∃ ds, Digits ds ∧ part = point :: ds

def Exponent (power : Bytes) : Prop :=
  power = [] ∨ ∃ e sign ds, (e = 0x65 ∨ e = 0x45) ∧
    (sign = [] ∨ ∃ s, (s = plus ∨ s = minus) ∧ sign = [s]) ∧ Digits ds ∧ power = e :: (sign ++ ds)

inductive Numeral : Bytes → Prop
  | mk {sign whole part power} : sign = [] ∨ sign = [minus] → Whole whole → Fraction part →
      Exponent power → Numeral (sign ++ (whole ++ (part ++ power)))

/-- What may follow a number without being read as more of it. -/
def Ends : Bytes → Prop
  | [] => True
  | b :: _ => ¬ isDigit b ∧ b ≠ point ∧ b ≠ 0x65 ∧ b ≠ 0x45

theorem exponent?_of_ends {rest : Bytes} (h : Ends rest) : exponent? rest = some ([], rest) := by
  cases rest with
  | nil => rfl
  | cons b rest =>
    have hne : ¬ (b = 0x65 ∨ b = 0x45) := by
      rintro (he | he)
      · exact h.2.2.1 he
      · exact h.2.2.2 he
    simp only [exponent?, if_neg hne]

theorem sign_of_digit {b : UInt8} (h : isDigit b) (rest : Bytes) :
    sign (b :: rest) = ([], b :: rest) := by
  have hne : b ≠ minus := by
    rintro rfl
    exact absurd h (by decide)
  exact sign.eq_2 (b :: rest) fun _ heq => hne (List.cons.inj heq).1

def Stops (bytes : Bytes) : Prop := ∀ b ∈ bytes.head?, ¬ isDigit b

theorem Ends.stops {rest : Bytes} (h : Ends rest) : Stops rest := by
  intro b hb
  obtain ⟨rest, rfl⟩ := List.head?_eq_some_iff.mp hb
  exact h.1

theorem Digits.read {ds rest : Bytes} (h : Digits ds) (hrest : Stops rest) :
    digits? (ds ++ rest) = some (ds, rest) := by
  simp only [digits?, takeWhile_run h.2 hrest, dropWhile_run h.2 hrest,
    List.isEmpty_eq_false_iff.mpr h.1, Bool.false_eq_true, ↓reduceIte]

theorem Digits.head {ds : Bytes} (h : Digits ds) : ∃ b rest, ds = b :: rest ∧ isDigit b := by
  obtain ⟨b, rest, rfl⟩ := List.exists_cons_of_ne_nil h.1
  exact ⟨b, rest, rfl, h.2 b List.mem_cons_self⟩

theorem Whole.read {ds rest : Bytes} (h : Whole ds) (hrest : Stops rest) :
    integerPart? (ds ++ rest) = some (ds, rest) := by
  obtain ⟨hdigits, hzero⟩ := h
  obtain ⟨b, ds, rfl, -⟩ := hdigits.head
  by_cases hb : b = zero
  · subst hb
    rw [hzero rfl]
    rfl
  · have hne : ∀ rest', b :: ds ++ rest ≠ zero :: rest' := fun _ heq => hb (List.cons.inj heq).1
    rw [integerPart?.eq_2 _ hne, hdigits.read hrest]

theorem Exponent.read {power rest : Bytes} (h : Exponent power) (hrest : Ends rest) :
    exponent? (power ++ rest) = some (power, rest) := by
  obtain rfl | ⟨e, sign, ds, he, hsign, hdigits, rfl⟩ := h
  · exact exponent?_of_ends hrest
  · have hread := hdigits.read hrest.stops
    obtain ⟨b, tail, hds, hb⟩ := hdigits.head
    obtain rfl | ⟨s, hs, rfl⟩ := hsign
    · have hne : ¬ (b = plus ∨ b = minus) := by
        rintro (rfl | rfl) <;> cases hb
      rw [hds] at hread ⊢
      simp only [List.nil_append, List.cons_append] at hread ⊢
      rw [exponent?, if_pos he, if_neg hne, hread]
      rfl
    · simp only [List.cons_append, List.nil_append]
      rw [exponent?, if_pos he, if_pos hs, hread]
      rfl

theorem Exponent.stops {power rest : Bytes} (h : Exponent power) (hrest : Ends rest) :
    Stops (power ++ rest) ∧ ∀ b ∈ (power ++ rest).head?, b ≠ point := by
  obtain rfl | ⟨e, sign, ds, he, -, -, rfl⟩ := h
  · refine ⟨hrest.stops, fun b hb => ?_⟩
    obtain ⟨rest, rfl⟩ := List.head?_eq_some_iff.mp hb
    exact hrest.2.1
  · constructor
    · rintro _ ⟨⟩
      obtain rfl | rfl := he <;> decide
    · rintro _ ⟨⟩
      obtain rfl | rfl := he <;> decide

theorem Fraction.read {part rest : Bytes} (h : Fraction part) (hrest : Stops rest)
    (hpoint : ∀ b ∈ rest.head?, b ≠ point) : fraction? (part ++ rest) = some (part, rest) := by
  obtain rfl | ⟨ds, hdigits, rfl⟩ := h
  · exact fraction?.eq_2 rest fun rest' heq => hpoint point (heq ▸ rfl) rfl
  · refine (fraction?.eq_1 (ds ++ rest)).trans ?_
    rw [hdigits.read hrest]
    rfl

theorem Fraction.stops {part rest : Bytes} (h : Fraction part) (hrest : Stops rest) :
    Stops (part ++ rest) := by
  obtain rfl | ⟨ds, -, rfl⟩ := h
  · exact hrest
  · rintro _ ⟨⟩
    decide

theorem Numeral.read {literal rest : Bytes} (h : Numeral literal) (hrest : Ends rest) :
    number? (literal ++ rest) = some (literal, rest) := by
  obtain ⟨hsign, hwhole, hpart, hpower⟩ := h
  rename_i sign whole part power
  obtain ⟨hstops, hpoint⟩ := hpower.stops hrest
  have hsigned : Json.sign (sign ++ (whole ++ (part ++ (power ++ rest)))) =
      (sign, whole ++ (part ++ (power ++ rest))) := by
    obtain rfl | rfl := hsign
    · obtain ⟨b, ds, rfl, hb⟩ := hwhole.1.head
      exact sign_of_digit hb _
    · rfl
  simp only [number?, List.append_assoc, hsigned, hwhole.read (hpart.stops hstops),
    hpart.read hstops hpoint, hpower.read hrest, Option.bind_eq_bind, Option.bind_some,
    Option.pure_def]

theorem Numeral.head {literal : Bytes} (h : Numeral literal) :
    ∃ b rest, literal = b :: rest ∧ (b = minus ∨ isDigit b) := by
  obtain ⟨hsign, hwhole, -, -⟩ := h
  obtain rfl | rfl := hsign
  · obtain ⟨b, ds, rfl, hb⟩ := hwhole.1.head
    exact ⟨b, _, rfl, .inr hb⟩
  · exact ⟨minus, _, rfl, .inl rfl⟩

def digits (n : Nat) : Bytes := (Nat.toDigits 10 n).map fun c => .ofNat c.toNat

theorem isDigit_of_mem_digits {n : Nat} {b : UInt8} (h : b ∈ digits n) : isDigit b := by
  obtain ⟨c, hc, rfl⟩ := List.mem_map.mp h
  have hrange := Text.toNat_of_isDigit (Text.isDigit_of_mem_toDigits hc)
  have hb : (UInt8.ofNat c.toNat).toNat = c.toNat := Utf8.toNat_ofNat (by omega)
  simpa [isDigit, UInt8.le_iff_toNat_le, hb] using hrange

theorem digits_ne_nil (n : Nat) : digits n ≠ [] := by
  simp [digits]

theorem ascii_decimal_ofNat (n : Nat) : ascii (Text.decimal n) = digits n := by
  have hascii : ∀ c ∈ Nat.toDigits 10 n, c.toNat < 0x80 := by
    intro c hc
    have hrange := Text.toNat_of_isDigit (Text.isDigit_of_mem_toDigits hc)
    omega
  rw [ascii, Utf8.encode, Text.toList_decimal_ofNat, Utf8.encodeChars_ascii hascii, digits]

theorem ascii_decimal_negSucc (n : Nat) :
    ascii (Text.decimal (.negSucc n)) = minus :: digits (n + 1) := by
  have hascii : ∀ c ∈ '-' :: Nat.toDigits 10 (n + 1), c.toNat < 0x80 := by
    refine List.forall_mem_cons.mpr ⟨by decide, fun c hc => ?_⟩
    have hrange := Text.toNat_of_isDigit (Text.isDigit_of_mem_toDigits hc)
    omega
  rw [ascii, Utf8.encode, Text.toList_decimal_negSucc, Utf8.encodeChars_ascii hascii]
  rfl

theorem chars_digits (n : Nat) :
    (digits n).map (fun b => Char.ofNat b.toNat) = Nat.toDigits 10 n := by
  rw [digits, List.map_map]
  refine (List.map_congr_left fun c hc => ?_).trans (List.map_id _)
  have hrange := Text.toNat_of_isDigit (Text.isDigit_of_mem_toDigits hc)
  have hb : (UInt8.ofNat c.toNat).toNat = c.toNat := Utf8.toNat_ofNat (by omega)
  rw [Function.comp_apply, hb, Char.ofNat_toNat, id]

theorem digits_of_zero_head {n : Nat} {ds : Bytes} (h : digits n = zero :: ds) : ds = [] := by
  obtain ⟨c, cs, hcs, hc, rfl⟩ := List.map_eq_cons_iff.mp h
  have hdigit := Text.toNat_of_isDigit (Text.isDigit_of_mem_toDigits (hcs ▸ List.mem_cons_self))
  have hb : (UInt8.ofNat c.toNat).toNat = c.toNat := Utf8.toNat_ofNat (by omega)
  have hzero : c = '0' := by
    apply Char.toNat_inj.mp
    rw [← hb, hc]
    rfl
  subst hzero
  rw [Text.toDigits_of_zero_head hcs, List.map_nil]

theorem whole_digits (n : Nat) : Whole (digits n) := by
  refine ⟨⟨digits_ne_nil n, fun b => isDigit_of_mem_digits⟩, fun hzero => ?_⟩
  obtain ⟨ds, hds⟩ := List.head?_eq_some_iff.mp hzero
  rw [hds, digits_of_zero_head hds]

theorem numeral_decimal (n : Int) : Numeral (ascii (Text.decimal n)) := by
  cases n with
  | ofNat n =>
    have hnumeral := Numeral.mk (.inl rfl) (whole_digits n) (.inl rfl) (.inl rfl)
    rw [Int.ofNat_eq_natCast, ascii_decimal_ofNat]
    simpa using hnumeral
  | negSucc n =>
    have hnumeral := Numeral.mk (.inr rfl) (whole_digits (n + 1)) (.inl rfl) (.inl rfl)
    rw [ascii_decimal_negSucc]
    simpa using hnumeral

theorem number?_decimal (n : Int) {rest : Bytes} (h : Ends rest) :
    number? (ascii (Text.decimal n) ++ rest) = some (ascii (Text.decimal n), rest) :=
  (numeral_decimal n).read h

theorem integerOf?_decimal (n : Int) : integerOf? (ascii (Text.decimal n)) = some n := by
  cases n with
  | ofNat n =>
    have hread : Text.digits? ((digits n).map fun b => Char.ofNat b.toNat) = some n := by
      rw [chars_digits, Text.digits?_toDigits]
    have hne : ∀ ds, digits n ≠ minus :: ds := by
      intro ds heq
      exact absurd (isDigit_of_mem_digits (heq ▸ List.mem_cons_self)) (by decide)
    rw [Int.ofNat_eq_natCast, ascii_decimal_ofNat, integerOf?.eq_2 _ hne]
    simp only [hread]
    rfl
  | negSucc n =>
    have hread :
        Text.digits? ((digits (n + 1)).map fun b => Char.ofNat b.toNat) = some (n + 1) := by
      rw [chars_digits, Text.digits?_toDigits]
    rw [ascii_decimal_negSucc]
    refine (integerOf?.eq_1 _).trans ?_
    simp only [hread, Option.bind_some, if_neg (Nat.succ_ne_zero n)]
    rfl

end TraceIndex.Json
