import Mathlib.Data.List.Basic
import TraceIndex.Proofs.Texts

namespace TraceIndex.Utf8

def Begins (bytes : Bytes) : Prop := ∃ c, bytes <+: String.utf8EncodeChar c

/-- A piece of bytes where no character stands. It is as long as what some character begins with,
and a single byte if no character begins with that. -/
structure Broken (piece rest : Bytes) : Prop where
  noChar : ∀ c, ¬ String.utf8EncodeChar c <+: piece ++ rest
  nonempty : piece ≠ []
  begins : Begins piece ∨ piece.length = 1
  longest : ∀ p, p <+: piece ++ rest → Begins p → p.length ≤ piece.length

/-- The characters that are read from bytes, with a replacement for each broken piece. -/
inductive Replaced : Bytes → List Char → Prop
  | nil : Replaced [] []
  | char {c : Char} {rest : Bytes} {cs : List Char} (h : Replaced rest cs) :
    Replaced (String.utf8EncodeChar c ++ rest) (c :: cs)
  | broken {piece rest : Bytes} {cs : List Char} (hpiece : Broken piece rest)
    (h : Replaced rest cs) : Replaced (piece ++ rest) ('\uFFFD' :: cs)

inductive Shape : Bytes → Prop
  | one {a : UInt8} (ha : a < 0x80) : Shape [a]
  | more {a b : UInt8} {l : Lead} {tails : Bytes} (ha : ¬ a < 0x80) (hl : lead? a = some l)
    (hb : l.low ≤ b ∧ b ≤ l.high) (hlength : tails.length = l.more)
    (htails : ∀ c ∈ tails, isTail c) : Shape (a :: b :: tails)

/-- How bytes look that begin like a character and do not go on like it, before what follows. -/
inductive Stops : Bytes → Bytes → Prop
  | unled {a : UInt8} {rest : Bytes} (ha : ¬ a < 0x80) (hl : lead? a = none) : Stops [a] rest
  | led {a : UInt8} {l : Lead} {rest : Bytes} (ha : ¬ a < 0x80) (hl : lead? a = some l)
    (hnext : ∀ b ∈ rest.head?, ¬ (l.low ≤ b ∧ b ≤ l.high)) : Stops [a] rest
  | tailed {a b : UInt8} {l : Lead} {tails rest : Bytes} (ha : ¬ a < 0x80) (hl : lead? a = some l)
    (hb : l.low ≤ b ∧ b ≤ l.high) (hlength : tails.length < l.more)
    (htails : ∀ c ∈ tails, isTail c) (hnext : ∀ c ∈ rest.head?, ¬ isTail c) :
    Stops (a :: b :: tails) rest

variable {a b : UInt8} {l : Lead} {bytes piece rest tails : Bytes}

theorem lead?_ranges (hl : lead? a = some l) (hb : l.low ≤ b ∧ b ≤ l.high) :
    (0x80 ≤ b.toNat ∧ b.toNat ≤ 0xBF) ∧
      ((l.more = 0 ∧ l.bits + 0xC0 = a.toNat ∧ 2 ≤ l.bits ∧ l.bits < 0x20) ∨
      (l.more = 1 ∧ l.bits + 0xE0 = a.toNat ∧ l.bits < 0x10 ∧ 0x20 ≤ extend l.bits b ∧
        (extend l.bits b < 0x360 ∨ 0x380 ≤ extend l.bits b)) ∨
      (l.more = 2 ∧ l.bits + 0xF0 = a.toNat ∧ l.bits < 8 ∧ 0x10 ≤ extend l.bits b ∧
        extend l.bits b < 0x110)) := by
  unfold lead? at hl
  simp only [UInt8.lt_iff_toNat_lt, UInt8.le_iff_toNat_le, ← UInt8.toNat_inj,
    UInt8.reduceToNat] at hl hb
  unfold extend
  split_ifs at hl <;> obtain rfl := Option.some.inj hl <;>
    simp only [UInt8.reduceToNat, true_and] at hb ⊢ <;> omega

theorem more_le_two (hl : lead? a = some l) : l.more ≤ 2 := by
  unfold lead? at hl
  split_ifs at hl <;> obtain rfl := Option.some.inj hl <;> simp

theorem pieces_cases (h : bytes ≠ []) :
    (∃ p c rest, Shape p ∧ bytes = p ++ rest ∧ pieces bytes = some c :: pieces rest) ∨
      ∃ p rest, Stops p rest ∧ bytes = p ++ rest ∧ pieces bytes = none :: pieces rest := by
  fun_cases pieces bytes with
  | case1 => exact absurd rfl h
  | case2 a rest ha => exact .inl ⟨[a], _, rest, .one ha, rfl, rfl⟩
  | case3 a rest ha hl => exact .inr ⟨[a], rest, .unled ha hl, rfl, rfl⟩
  | case4 a ha l hl => exact .inr ⟨[a], [], .led ha hl (by simp), rfl, by simp [pieces]⟩
  | case5 a ha l hl b rest hb hmore =>
    exact .inl ⟨[a, b], _, rest, .more ha hl hb hmore.symm (by simp), rfl, rfl⟩
  | case6 a ha l hl b hb hmore =>
    exact .inr ⟨[a, b], [], .tailed ha hl hb (Nat.pos_of_ne_zero hmore) (by simp) (by simp), rfl,
      by simp [pieces]⟩
  | case7 a ha l hl b hb hmore c rest hc hone =>
    exact .inl ⟨[a, b, c], _, rest, .more ha hl hb hone.symm (by simpa using hc), rfl, rfl⟩
  | case8 a ha l hl b hb hmore c hc hone =>
    have hlength : 1 < l.more := by omega
    exact .inr ⟨[a, b, c], [], .tailed ha hl hb hlength (by simpa using hc) (by simp), rfl,
      by simp [pieces]⟩
  | case9 a ha l hl b hb hmore c hc hone d rest hd =>
    have htwo : 2 = l.more := by
      have := more_le_two hl
      omega
    exact .inl ⟨[a, b, c, d], _, rest, .more ha hl hb htwo (by simpa using ⟨hc, hd⟩), rfl, rfl⟩
  | case10 a ha l hl b hb hmore c hc hone d rest hd =>
    have hlength : 1 < l.more := by omega
    exact .inr ⟨[a, b, c], d :: rest, .tailed ha hl hb hlength (by simpa using hc)
      (by simpa using hd), rfl, rfl⟩
  | case11 a ha l hl b hb hmore c rest hc =>
    exact .inr ⟨[a, b], c :: rest, .tailed ha hl hb (Nat.pos_of_ne_zero hmore) (by simp)
      (by simpa using hc), rfl, rfl⟩
  | case12 a ha l hl b rest hb =>
    exact .inr ⟨[a], b :: rest, .led ha hl (by simpa using hb), rfl, rfl⟩

theorem pieces_nil : pieces [] = [] := by rw [pieces]

theorem pieces_ne_nil (h : bytes ≠ []) : pieces bytes ≠ [] := by
  obtain ⟨-, c, rest, -, -, heq⟩ | ⟨-, rest, -, -, heq⟩ := pieces_cases h <;> simp [heq]

theorem shape_of_char (c : Char) : Shape (String.utf8EncodeChar c) := by
  have hpieces := pieces_char c []
  rw [List.append_nil, pieces_nil] at hpieces
  have hne : String.utf8EncodeChar c ≠ [] := by
    rintro h
    simp [h, pieces_nil] at hpieces
  obtain ⟨p, d, rest, hp, hbytes, heq⟩ | ⟨-, rest, -, -, heq⟩ := pieces_cases hne
  · obtain ⟨-, hrest⟩ := List.cons.inj (heq.symm.trans hpieces)
    obtain rfl : rest = [] := by
      by_contra h
      exact pieces_ne_nil h hrest
    rwa [hbytes, List.append_nil]
  · rw [heq] at hpieces
    cases hpieces

theorem encode_ofNat {v : Nat} (valid : v < 0xD800 ∨ 0xDFFF < v ∧ v < 0x110000) :
    String.utf8EncodeChar (Char.ofNat v) =
      if v ≤ 0x7F then [.ofNat v]
      else if v ≤ 0x7FF then [.ofNat (v / 64 % 32 + 192), .ofNat (v % 64 + 128)]
      else if v ≤ 0xFFFF then
        [.ofNat (v / 4096 % 16 + 224), .ofNat (v / 64 % 64 + 128), .ofNat (v % 64 + 128)]
      else
        [.ofNat (v / 262144 % 8 + 240), .ofNat (v / 4096 % 64 + 128), .ofNat (v / 64 % 64 + 128),
          .ofNat (v % 64 + 128)] := by
  have hv : (Char.ofNat v).val.toNat = v := toNat_char valid
  simp only [String.utf8EncodeChar, hv]

theorem ofNat_eq {n : Nat} (h : n = a.toNat) : UInt8.ofNat n = a := by
  rw [h, UInt8.ofNat_toNat]

theorem isTail_range {c : UInt8} (h : isTail c) : 0x80 ≤ c.toNat ∧ c.toNat ≤ 0xBF := by
  simpa [isTail, UInt8.le_iff_toNat_le] using h

theorem char_of_two (hl : lead? a = some l) (hb : l.low ≤ b ∧ b ≤ l.high) (hmore : l.more = 0) :
    String.utf8EncodeChar (Char.ofNat (extend l.bits b)) = [a, b] := by
  have hranges := lead?_ranges hl hb
  have hv : extend l.bits b = l.bits * 64 + (b.toNat - 0x80) := rfl
  rw [encode_ofNat (by omega), if_neg (by omega), if_pos (by omega), ofNat_eq (a := a) (by omega),
    ofNat_eq (a := b) (by omega)]

theorem char_of_three {c : UInt8} (hl : lead? a = some l) (hb : l.low ≤ b ∧ b ≤ l.high)
    (hmore : l.more = 1) (hc : isTail c) :
    String.utf8EncodeChar (Char.ofNat (extend (extend l.bits b) c)) = [a, b, c] := by
  have hranges := lead?_ranges hl hb
  have hc := isTail_range hc
  have hv : extend l.bits b = l.bits * 64 + (b.toNat - 0x80) := rfl
  have hw : extend (extend l.bits b) c = extend l.bits b * 64 + (c.toNat - 0x80) := rfl
  rw [encode_ofNat (by omega), if_neg (by omega), if_neg (by omega), if_pos (by omega),
    ofNat_eq (a := a) (by omega), ofNat_eq (a := b) (by omega), ofNat_eq (a := c) (by omega)]

theorem char_of_four {c d : UInt8} (hl : lead? a = some l) (hb : l.low ≤ b ∧ b ≤ l.high)
    (hmore : l.more = 2) (hc : isTail c) (hd : isTail d) :
    String.utf8EncodeChar (Char.ofNat (extend (extend (extend l.bits b) c) d)) = [a, b, c, d] := by
  have hranges := lead?_ranges hl hb
  have hc := isTail_range hc
  have hd := isTail_range hd
  have hv : extend l.bits b = l.bits * 64 + (b.toNat - 0x80) := rfl
  have hw : extend (extend l.bits b) c = extend l.bits b * 64 + (c.toNat - 0x80) := rfl
  have hx : extend (extend (extend l.bits b) c) d =
    extend (extend l.bits b) c * 64 + (d.toNat - 0x80) := rfl
  rw [encode_ofNat (by omega), if_neg (by omega), if_neg (by omega), if_neg (by omega),
    ofNat_eq (a := a) (by omega), ofNat_eq (a := b) (by omega), ofNat_eq (a := c) (by omega),
    ofNat_eq (a := d) (by omega)]

theorem char_of_shape (h : Shape bytes) : ∃ c, String.utf8EncodeChar c = bytes := by
  cases h with
  | @one a ha =>
    have ha : a.toNat < 0x80 := UInt8.lt_iff_toNat_lt.mp ha
    refine ⟨Char.ofNat a.toNat, ?_⟩
    rw [encode_ofNat (by omega), if_pos (by omega), UInt8.ofNat_toNat]
  | @more a b l tails ha hl hb hlength htails =>
    obtain ⟨-, ⟨hmore, -⟩ | ⟨hmore, -⟩ | ⟨hmore, -⟩⟩ := lead?_ranges hl hb <;> rw [hmore] at hlength
    · obtain rfl := List.length_eq_zero_iff.mp hlength
      exact ⟨_, char_of_two hl hb hmore⟩
    · obtain ⟨c, rfl⟩ := List.length_eq_one_iff.mp hlength
      exact ⟨_, char_of_three hl hb hmore (htails c (by simp))⟩
    · obtain ⟨c, d, rfl⟩ := List.length_eq_two.mp hlength
      exact ⟨_, char_of_four hl hb hmore (htails c (by simp)) (htails d (by simp))⟩

theorem begins_cons (h : Begins (a :: b :: tails)) :
    ∃ l, lead? a = some l ∧ (l.low ≤ b ∧ b ≤ l.high) ∧ tails.length ≤ l.more ∧
      ∀ c ∈ tails, isTail c := by
  obtain ⟨c, rest, hc⟩ := h
  have hshape := shape_of_char c
  rw [← hc] at hshape
  cases hshape with
  | more ha hl hb hlength htails =>
    have hsum : tails.length + rest.length = _ := List.length_append.symm.trans hlength
    exact ⟨_, hl, hb, by omega, fun c hc => htails c (List.mem_append_left _ hc)⟩

theorem begins_of_lead (ha : ¬ a < 0x80) (hl : lead? a = some l) (hb : l.low ≤ b ∧ b ≤ l.high)
    (hlength : tails.length ≤ l.more) (htails : ∀ c ∈ tails, isTail c) :
    Begins (a :: b :: tails) := by
  let more := List.replicate (l.more - tails.length) (0x80 : UInt8)
  have hmore : (tails ++ more).length = l.more := by simp [more]; omega
  have hall : ∀ c ∈ tails ++ more, isTail c := by
    intro c hc
    obtain hc | hc := List.mem_append.mp hc
    · exact htails c hc
    · rw [List.eq_of_mem_replicate hc]
      rfl
  obtain ⟨c, hc⟩ := char_of_shape (.more ha hl hb hmore hall)
  exact ⟨c, more, hc.symm⟩

theorem Begins.of_prefix (h : Begins bytes) (hp : piece <+: bytes) : Begins piece := by
  obtain ⟨c, hc⟩ := h
  exact ⟨c, hp.trans hc⟩

/-- A piece is as long as it can be if it holds no character and the next byte does not continue
it. -/
theorem broken_of_next (nonempty : piece ≠ []) (begins : Begins piece ∨ piece.length = 1)
    (noChar : ∀ c, ¬ String.utf8EncodeChar c <+: piece)
    (next : ∀ b ∈ rest.head?, ¬ Begins (piece ++ [b])) : Broken piece rest := by
  have longest : ∀ p, p <+: piece ++ rest → Begins p → p.length ≤ piece.length := by
    intro p hp hbegins
    by_contra hlonger
    cases rest with
    | nil =>
      have hlength := hp.length_le
      rw [List.append_nil] at hlength
      exact hlonger hlength
    | cons b rest =>
      apply next b rfl
      apply hbegins.of_prefix
      apply List.prefix_of_prefix_length_le _ hp
      · rw [List.length_append, List.length_singleton]
        omega
      · rw [List.append_cons piece b rest]
        exact List.prefix_append (piece ++ [b]) rest
  refine ⟨fun c hc => noChar c ?_, nonempty, begins, longest⟩
  exact List.prefix_of_prefix_length_le hc (List.prefix_append _ _)
    (longest _ hc ⟨c, List.prefix_rfl⟩)

theorem lead_of_char {c : Char} (ha : ¬ a < 0x80) (h : String.utf8EncodeChar c <+: a :: tails) :
    ∃ l rest, lead? a = some l ∧ rest <+: tails ∧ rest.length = l.more + 1 := by
  have hshape := shape_of_char c
  generalize String.utf8EncodeChar c = bytes at h hshape
  cases hshape with
  | one ha' =>
    obtain ⟨rfl, -⟩ := List.cons_prefix_cons.mp h
    exact absurd ha' ha
  | more ha' hl hb hlength htails =>
    obtain ⟨rfl, hrest⟩ := List.cons_prefix_cons.mp h
    exact ⟨_, _, hl, hrest, by rw [List.length_cons, hlength]⟩

theorem broken_of_stops (h : Stops piece rest) : Broken piece rest := by
  have alone : ∀ {a : UInt8}, ¬ a < 0x80 → ∀ c, ¬ String.utf8EncodeChar c <+: [a] := by
    intro a ha c hc
    obtain ⟨l, rest, -, hrest, hlength⟩ := lead_of_char ha hc
    obtain rfl := List.prefix_nil.mp hrest
    cases hlength
  cases h with
  | unled ha hl =>
    apply broken_of_next (List.cons_ne_nil _ _) (.inr rfl) (alone ha)
    intro b _ hbegins
    obtain ⟨l, hl', -⟩ := begins_cons hbegins
    rw [hl] at hl'
    cases hl'
  | led ha hl hnext =>
    apply broken_of_next (List.cons_ne_nil _ _) (.inr rfl) (alone ha)
    intro b hb hbegins
    obtain ⟨l, hl', hrange, -⟩ := begins_cons hbegins
    obtain rfl := Option.some.inj (hl.symm.trans hl')
    exact hnext b hb hrange
  | tailed ha hl hb hlength htails hnext =>
    apply broken_of_next (List.cons_ne_nil _ _)
      (.inl (begins_of_lead ha hl hb (Nat.le_of_lt hlength) htails))
    · intro c hc
      obtain ⟨l, rest, hl', hrest, hmore⟩ := lead_of_char ha hc
      obtain rfl := Option.some.inj (hl.symm.trans hl')
      have hle := hrest.length_le
      rw [List.length_cons] at hle
      omega
    · intro c hc hbegins
      obtain ⟨l, -, -, -, hall⟩ := begins_cons hbegins
      exact hnext c hc (hall c (List.mem_append_right _ List.mem_cons_self))

theorem Broken.unique {other rest' : Bytes} (h : Broken piece rest) (h' : Broken other rest')
    (heq : piece ++ rest = other ++ rest') : piece = other ∧ rest = rest' := by
  have length_le : ∀ {p q r t : Bytes}, Broken p r → Broken q t → p ++ r = q ++ t →
      p.length ≤ q.length := by
    intro p q r t hp hq hpq
    obtain hbegins | hone := hp.begins
    · apply hq.longest _ _ hbegins
      rw [← hpq]
      exact List.prefix_append _ _
    · rw [hone]
      exact List.length_pos_iff.mpr hq.nonempty
  exact List.append_inj heq (Nat.le_antisymm (length_le h h' heq) (length_le h' h heq.symm))

theorem Broken.pieces (h : Broken piece rest) :
    Utf8.pieces (piece ++ rest) = none :: Utf8.pieces rest := by
  have hne : piece ++ rest ≠ [] := List.append_ne_nil_of_left_ne_nil h.nonempty _
  obtain ⟨p, c, rest', hp, hbytes, -⟩ | ⟨p, rest', hp, hbytes, heq⟩ := pieces_cases hne
  · obtain ⟨c, rfl⟩ := char_of_shape hp
    exact absurd (hbytes ▸ List.prefix_append _ _) (h.noChar c)
  · obtain ⟨rfl, rfl⟩ := h.unique (broken_of_stops hp) hbytes
    exact heq

theorem lossyChars_char (c : Char) (rest : Bytes) :
    lossyChars (String.utf8EncodeChar c ++ rest) = c :: lossyChars rest := by
  rw [lossyChars, pieces_char]
  rfl

theorem lossyChars_broken (h : Broken piece rest) :
    lossyChars (piece ++ rest) = '\uFFFD' :: lossyChars rest := by
  rw [lossyChars, h.pieces]
  rfl

theorem replaced_lossyChars (bytes : Bytes) : Replaced bytes (lossyChars bytes) := by
  induction hn : bytes.length using Nat.strongRecOn generalizing bytes with
  | ind n ih =>
    have shorter : ∀ {p rest : Bytes}, p ≠ [] → bytes = p ++ rest →
        Replaced rest (lossyChars rest) := by
      rintro p rest hp rfl
      apply ih rest.length _ rest rfl
      have hpos := List.length_pos_iff.mpr hp
      rw [← hn, List.length_append]
      omega
    by_cases hne : bytes = []
    · rw [hne, lossyChars, pieces_nil]
      exact .nil
    · obtain ⟨p, -, rest, hp, hbytes, -⟩ | ⟨p, rest, hp, hbytes, -⟩ := pieces_cases hne
      · obtain ⟨c, rfl⟩ := char_of_shape hp
        have hrest := shorter String.utf8EncodeChar_ne_nil hbytes
        rw [hbytes, lossyChars_char]
        exact .char hrest
      · have hbroken := broken_of_stops hp
        have hrest := shorter hbroken.nonempty hbytes
        rw [hbytes, lossyChars_broken hbroken]
        exact .broken hbroken hrest

/-- What is read from bytes is the one text that they can be read as. -/
theorem replaced_iff {cs : List Char} : Replaced bytes cs ↔ lossyChars bytes = cs := by
  constructor
  · intro h
    induction h with
    | nil => rw [lossyChars, pieces_nil, List.map_nil]
    | char _ ih => rw [lossyChars_char, ih]
    | broken hpiece _ ih => rw [lossyChars_broken hpiece, ih]
  · rintro rfl
    exact replaced_lossyChars bytes

theorem replaced_encode {s text : String} : Replaced (encode s) text.toList ↔ text = s := by
  have hchars : lossyChars (encodeChars s.toList) = s.toList := by
    simp [lossyChars, pieces_encodeChars, Function.comp_def]
  rw [replaced_iff, encode, hchars, String.toList_inj]
  exact eq_comm

end TraceIndex.Utf8
