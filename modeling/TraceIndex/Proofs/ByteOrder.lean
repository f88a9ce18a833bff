import Mathlib.Algebra.Group.Int.Defs
import Mathlib.Algebra.Group.Nat.Defs
import Mathlib.Order.Lattice
import Mathlib.Order.Nat
import TraceIndex.Proofs.Keys

namespace TraceIndex

theorem compare_eq_then {α β : Type} [LinearOrder α] [LinearOrder β] {x y : α} {a b : β}
    {rest : Ordering} (hlt : a < b → x < y) (hgt : b < a → y < x)
    (heq : a = b → compare x y = rest) : compare x y = (compare a b).then rest := by
  obtain h | h | h := lt_trichotomy a b
  · rw [compare_lt_iff_lt.mpr h, compare_lt_iff_lt.mpr (hlt h)]
    rfl
  · rw [compare_eq_iff_eq.mpr h, heq h]
    rfl
  · rw [compare_gt_iff_gt.mpr h, compare_gt_iff_gt.mpr (hgt h)]
    rfl

section Lists

variable {α β : Type} [Ord α] [Ord β]

theorem compare_append {as bs : List α} (h : as.length = bs.length) (cs ds : List α) :
    compare (as ++ cs) (bs ++ ds) = (compare as bs).then (compare cs ds) := by
  induction as generalizing bs with
  | nil =>
    obtain rfl := List.length_eq_zero_iff.mp h.symm
    simp
  | cons a as ih =>
    cases bs with
    | nil => cases h
    | cons b bs =>
      rw [List.cons_append, List.cons_append, List.compare_cons_cons, List.compare_cons_cons,
        ih (Nat.succ.inj h), Ordering.then_assoc]

theorem compare_map {f : α → β} (h : ∀ a b, compare (f a) (f b) = compare a b) (as bs : List α) :
    compare (as.map f) (bs.map f) = compare as bs := by
  induction as generalizing bs with
  | nil => cases bs <;> simp
  | cons a as ih =>
    cases bs with
    | nil => simp
    | cons b bs =>
      rw [List.map_cons, List.map_cons, List.compare_cons_cons, List.compare_cons_cons, h, ih]

end Lists

theorem compare_byte (a b : UInt8) : compare a.toNat b.toNat = compare a b := by
  simp [Ord.compare, compareOfLessAndEq, UInt8.lt_iff_toNat_lt, ← UInt8.toNat_inj]

theorem compare_digits (base v w : Nat) :
    compare v w = (compare (v / base) (w / base)).then (compare (v % base) (w % base)) := by
  refine compare_eq_then Nat.lt_of_div_lt_div Nat.lt_of_div_lt_div fun h => ?_
  have hv := Nat.div_add_mod v base
  have hw := Nat.div_add_mod w base
  rw [h] at hv
  simp only [Nat.compare_eq_ite_lt]
  split_ifs <;> first | rfl | omega

namespace Bytes

theorem big_succ (n v : Nat) : big (n + 1) v = big n (v / 256) ++ [UInt8.ofNat v] := by
  rw [big, little, List.reverse_cons, big]

theorem compare_big {n v w : Nat} (hv : v < room n) (hw : w < room n) :
    compare (big n v) (big n w) = compare v w := by
  induction n generalizing v w with
  | zero =>
    obtain rfl := Nat.lt_one_iff.mp hv
    obtain rfl := Nat.lt_one_iff.mp hw
    rfl
  | succ n ih =>
    have hv' : v / 256 < room n := Nat.div_lt_of_lt_mul hv
    have hw' : w / 256 < room n := Nat.div_lt_of_lt_mul hw
    have hlength : (big n (v / 256)).length = (big n (w / 256)).length := by
      rw [length_big, length_big]
    have hlast : compare (UInt8.ofNat v) (UInt8.ofNat w) = compare (v % 256) (w % 256) := by
      rw [← compare_byte]
      simp
    rw [big_succ, big_succ, compare_append hlength, ih hv' hw', List.compare_cons_cons, hlast,
      List.compare_nil_nil, compare_digits 256 v w]
    simp

theorem ofLittle_lt (bytes : Bytes) : ofLittle bytes < room bytes.length := by
  induction bytes with
  | nil => exact Nat.one_pos
  | cons b rest ih =>
    have hb : b.toNat < 256 := b.toNat_lt
    simp only [ofLittle, List.length_cons, room]
    omega

theorem little_ofLittle (bytes : Bytes) : little bytes.length (ofLittle bytes) = bytes := by
  induction bytes with
  | nil => rfl
  | cons b rest ih =>
    have hb : b.toNat < 256 := b.toNat_lt
    have hfirst : UInt8.ofNat (b.toNat + 256 * ofLittle rest) = b := by
      apply UInt8.toNat_inj.mp
      rw [UInt8.toNat_ofNat']
      omega
    have hrest : (b.toNat + 256 * ofLittle rest) / 256 = ofLittle rest := by omega
    rw [List.length_cons, little, ofLittle, hfirst, hrest, ih]

theorem ofBig_lt (bytes : Bytes) : ofBig bytes < room bytes.length := by
  have h := ofLittle_lt bytes.reverse
  rwa [List.length_reverse] at h

theorem big_ofBig (bytes : Bytes) : big bytes.length (ofBig bytes) = bytes := by
  have h := little_ofLittle bytes.reverse
  rw [List.length_reverse] at h
  rw [big, ofBig, h, List.reverse_reverse]

end Bytes

theorem xor_highest {v : Nat} (h : v < 2 ^ 64) :
    v ^^^ 2 ^ 63 = if v < 2 ^ 63 then v + 2 ^ 63 else v - 2 ^ 63 := by
  have hlow : (v ^^^ 2 ^ 63) % 2 ^ 63 = v % 2 ^ 63 := by
    rw [Nat.xor_mod_two_pow, Nat.mod_self, Nat.xor_zero]
  have hhigh : (v ^^^ 2 ^ 63) / 2 ^ 63 = v / 2 ^ 63 ^^^ 1 := by
    rw [Nat.xor_div_two_pow, Nat.div_self (Nat.two_pow_pos 63)]
  have hbit : v / 2 ^ 63 = 0 ∨ v / 2 ^ 63 = 1 := by omega
  obtain hbit | hbit := hbit
  · rw [hbit, Nat.zero_xor] at hhigh
    rw [if_pos (by omega)]
    omega
  · rw [hbit, Nat.xor_self] at hhigh
    rw [if_neg (by omega)]
    omega

namespace SortableTime

/-- The number that the bytes of a time write. -/
def code (t : SortableTime) : UInt64 := t.micros.toUInt64 ^^^ signBit

theorem bytes_eq (t : SortableTime) : t.bytes = Bytes.big width t.code.toNat := rfl

theorem code_lt (t : SortableTime) : t.code.toNat < Bytes.room width := t.code.toNat_lt

theorem toNat_code (t : SortableTime) : (t.code.toNat : Int) = t.micros.toInt + 2 ^ 63 := by
  have hsigned : t.micros.toInt =
      if 2 * t.micros.toUInt64.toNat < 2 ^ 64 then (t.micros.toUInt64.toNat : Int)
      else t.micros.toUInt64.toNat - 2 ^ 64 :=
    BitVec.toInt_eq_toNat_cond t.micros.toBitVec
  have hlt : t.micros.toUInt64.toNat < 2 ^ 64 := t.micros.toUInt64.toNat_lt
  have hcode : t.code.toNat = t.micros.toUInt64.toNat ^^^ 2 ^ 63 := UInt64.toNat_xor ..
  rw [hcode, xor_highest hlt, hsigned]
  split_ifs <;> omega

theorem compare_bytes (t u : SortableTime) :
    compare t.bytes u.bytes = compare t.micros.toInt u.micros.toInt := by
  have ht := t.toNat_code
  have hu := u.toNat_code
  rw [bytes_eq, bytes_eq, Bytes.compare_big t.code_lt u.code_lt, Nat.compare_eq_ite_lt,
    Int.compare_eq_ite_lt]
  split_ifs <;> first | rfl | omega

/-- The bytes tell the time alone, so what comes after them does not count. -/
theorem compare_bytes_then (t u : SortableTime) :
    compareLex (compareOn bytes) (compareOn micros) t u = compare t.micros.toInt u.micros.toInt := by
  have hbytes : compareOn bytes t u = compare t.micros.toInt u.micros.toInt := compare_bytes t u
  rw [compareLex, hbytes]
  cases h : compare t.micros.toInt u.micros.toInt with
  | lt => rfl
  | gt => rfl
  | eq =>
    have hmicros : t.micros = u.micros := Int64.toInt_inj.mp (Std.LawfulEqOrd.eq_of_compare h)
    have hself : compare u.micros u.micros = .eq := Std.ReflCmp.compare_self
    rw [compareOn, hmicros, hself]
    rfl

theorem ofBytes_bytes (t : SortableTime) : ofBytes t.bytes = .ok t := by
  have hlength : t.bytes.length = width := Bytes.length_big ..
  have hcode : UInt64.ofNat (Bytes.ofBig t.bytes) = t.code := by
    rw [bytes_eq, Bytes.ofBig_big t.code_lt]
    exact UInt64.ofNat_toNat
  have htime : (t.code ^^^ signBit).toInt64 = t.micros := by
    rw [code, UInt64.xor_assoc, UInt64.xor_self, UInt64.xor_zero]
    rfl
  rw [ofBytes, if_pos hlength, hcode, htime]

theorem exists_of_length {bytes : Bytes} (h : bytes.length = width) :
    ∃ t, ofBytes bytes = .ok t ∧ t.bytes = bytes := by
  refine ⟨_, if_pos h, ?_⟩
  have hlt : Bytes.ofBig bytes < 2 ^ 64 := by
    have hlt := Bytes.ofBig_lt bytes
    rwa [h] at hlt
  have hcode : (UInt64.ofNat (Bytes.ofBig bytes) ^^^ signBit).toInt64.toUInt64 ^^^ signBit =
      UInt64.ofNat (Bytes.ofBig bytes) := by
    rw [UInt64.toUInt64_toInt64, UInt64.xor_assoc, UInt64.xor_self, UInt64.xor_zero]
  have hnumber : (UInt64.ofNat (Bytes.ofBig bytes)).toNat = Bytes.ofBig bytes :=
    UInt64.toNat_ofNat_of_lt' hlt
  rw [SortableTime.bytes, hcode, hnumber, ← h, Bytes.big_ofBig]

theorem ofBytes_of_length_ne {bytes : Bytes} (h : bytes.length ≠ width) :
    ofBytes bytes = .error (.invalidValue "ts"
      ("expected 8 bytes, got " ++ Text.decimal bytes.length)) := by
  have hexpected : "expected " ++ Text.decimal width ++ " bytes, got " = "expected 8 bytes, got " := by
    decide
  rw [ofBytes, if_neg h, hexpected]

/-- Times have the order of the bytes that they are written as, as unsigned numbers and the first of
them first, also where the time itself stands behind its bytes. A time is read back from its bytes,
eight bytes are written again as they were read, and bytes of any other length are refused. -/
theorem bytes_chronological (a b : Int64) (bytes : Bytes) :
    compare (SortableTime.mk a).bytes (SortableTime.mk b).bytes = compare a.toInt b.toInt ∧
    compare (SortableTime.mk a) ⟨b⟩ = compare a.toInt b.toInt ∧
    compareLex (compareOn SortableTime.bytes) (compareOn micros) ⟨a⟩ ⟨b⟩ =
      compare a.toInt b.toInt ∧
    ofBytes (SortableTime.mk a).bytes = .ok ⟨a⟩ ∧
    (bytes.length = 8 → ∃ t, ofBytes bytes = .ok t ∧ t.bytes = bytes) ∧
    (bytes.length ≠ 8 → ofBytes bytes = .error (.invalidValue "ts"
      ("expected 8 bytes, got " ++ Text.decimal bytes.length))) :=
  ⟨compare_bytes ⟨a⟩ ⟨b⟩, compare_bytes ⟨a⟩ ⟨b⟩, compare_bytes_then ⟨a⟩ ⟨b⟩, ofBytes_bytes ⟨a⟩,
    exists_of_length, ofBytes_of_length_ne⟩

theorem bytes_chronological_epoch :
    let last : Bytes := [0x7F, 0xFF, 0xFF, 0xFF, 0xFF, 0xFF, 0xFF, 0xFF]
    (SortableTime.mk (-1)).bytes = last ∧
    (SortableTime.mk 0).bytes = [0x80, 0, 0, 0, 0, 0, 0, 0] ∧
    compare (SortableTime.mk (-1)).bytes (SortableTime.mk 0).bytes =
      compare (-1 : Int64).toInt (0 : Int64).toInt ∧
    (last.length = 8 ∧ ∃ t, ofBytes last = .ok t ∧ t.bytes = last) ∧
    ([0x7F, 0xFF] : Bytes).length ≠ 8 ∧
      ofBytes [0x7F, 0xFF] = .error (.invalidValue "ts" "expected 8 bytes, got 2") := by
  intro last
  obtain ⟨horder, -, -, -, hread, -⟩ := bytes_chronological (-1) 0 last
  obtain ⟨-, -, -, -, -, hrefused⟩ := bytes_chronological (-1) 0 [0x7F, 0xFF]
  exact ⟨by decide, by decide, horder, ⟨rfl, hread rfl⟩, by decide, hrefused (by decide)⟩

end SortableTime

end TraceIndex
