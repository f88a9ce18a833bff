import Mathlib.Data.List.Forall2
import TraceIndex.Proofs.Calendar
import TraceIndex.Proofs.Texts

namespace TraceIndex

theorem Utf8.encodeChars_append (cs ds : List Char) :
    encodeChars (cs ++ ds) = encodeChars cs ++ encodeChars ds := List.flatMap_append

namespace Text

open Utf8

def lastDigits : Nat → Nat → List Char
  | 0, _ => []
  | width + 1, n => lastDigits width (n / 10) ++ [Nat.digitChar (n % 10)]

theorem lastDigits_zero (width : Nat) : lastDigits width 0 = List.replicate width '0' := by
  induction width with
  | zero => rfl
  | succ width ih =>
    rw [lastDigits, Nat.zero_div, ih, List.replicate_succ']
    rfl

theorem length_lastDigits (width n : Nat) : (lastDigits width n).length = width := by
  induction width generalizing n with
  | zero => rfl
  | succ width ih => rw [lastDigits, List.length_append, ih, List.length_singleton]

theorem toList_padded {width n : Nat} (hwidth : 0 < width) (h : n < 10 ^ width) :
    (padded width n).toList = lastDigits width n := by
  rw [padded, String.toList_ofList]
  induction width, hwidth using Nat.le_induction generalizing n with
  | base =>
    have hn : n < 10 := h
    rw [Nat.toDigits_of_lt_base hn, lastDigits, lastDigits, Nat.mod_eq_of_lt hn]
    rfl
  | succ width hwidth ih =>
    rw [lastDigits, Nat.toDigits_eq_if (by omega)]
    split
    · rename_i hn
      rw [Nat.div_eq_of_lt hn, lastDigits_zero, Nat.mod_eq_of_lt hn]
      rfl
    · have hrest : n / 10 < 10 ^ width := Nat.div_lt_of_lt_mul (by rwa [Nat.mul_comm])
      rw [← ih hrest, List.length_append, List.length_singleton, Nat.add_sub_add_right,
        List.append_assoc]

theorem length_encode_digit : ∀ d < 10, (encodeChars [Nat.digitChar d]).length = 1 := by decide

theorem compare_digit : ∀ d < 10, ∀ e < 10,
    compare (encodeChars [Nat.digitChar d]) (encodeChars [Nat.digitChar e]) = compare d e := by
  decide

theorem length_encode_lastDigits (width n : Nat) :
    (encodeChars (lastDigits width n)).length = width := by
  induction width generalizing n with
  | zero => rfl
  | succ width ih =>
    rw [lastDigits, encodeChars_append, List.length_append, ih,
      length_encode_digit _ (Nat.mod_lt n (by omega))]

theorem compare_lastDigits {width m n : Nat} (hm : m < 10 ^ width) (hn : n < 10 ^ width) :
    compare (encodeChars (lastDigits width m)) (encodeChars (lastDigits width n)) =
      compare m n := by
  induction width generalizing m n with
  | zero =>
    obtain rfl := Nat.lt_one_iff.mp hm
    obtain rfl := Nat.lt_one_iff.mp hn
    rfl
  | succ width ih =>
    have hm' : m / 10 < 10 ^ width := Nat.div_lt_of_lt_mul (by rwa [Nat.mul_comm])
    have hn' : n / 10 < 10 ^ width := Nat.div_lt_of_lt_mul (by rwa [Nat.mul_comm])
    have hlength : (encodeChars (lastDigits width (m / 10))).length =
        (encodeChars (lastDigits width (n / 10))).length := by
      rw [length_encode_lastDigits, length_encode_lastDigits]
    rw [lastDigits, lastDigits, encodeChars_append, encodeChars_append, compare_append hlength,
      ih hm' hn', compare_digit _ (Nat.mod_lt m (by omega)) _ (Nat.mod_lt n (by omega)),
      compare_digits 10 m n]

end Text

namespace Iso

open Text Utf8

/-- A number of a date or a time of day: how many digits it has, and what stands behind them. -/
structure Field where
  width : Nat
  stop : Char

namespace Field

def Holds (f : Field) (n : Nat) : Prop := n < 10 ^ f.width

def write : List Field → List Nat → List Char
  | f :: fs, n :: ns => lastDigits f.width n ++ f.stop :: write fs ns
  | _, _ => []

theorem compare_write {fs : List Field} {ms ns : List Nat} (hm : List.Forall₂ Holds fs ms)
    (hn : List.Forall₂ Holds fs ns) :
    compare (encodeChars (write fs ms)) (encodeChars (write fs ns)) = compare ms ns := by
  induction hm generalizing ns with
  | nil =>
    cases hn
    rfl
  | @cons f m fs ms hm _ ih =>
    obtain ⟨n, ns, hn', hns, rfl⟩ := List.forall₂_cons_left_iff.mp hn
    have hlength : (encodeChars (lastDigits f.width m)).length =
        (encodeChars (lastDigits f.width n)).length := by
      rw [length_encode_lastDigits, length_encode_lastDigits]
    have hstop : compare (encodeChars [f.stop]) (encodeChars [f.stop]) = .eq :=
      Std.ReflCmp.compare_self
    have hwrite : ∀ n ns, write (f :: fs) (n :: ns) =
        lastDigits f.width n ++ ([f.stop] ++ write fs ns) := fun _ _ => rfl
    simp only [hwrite, encodeChars_append]
    rw [compare_append hlength, compare_append rfl, hstop, ih hns, compare_lastDigits hm hn',
      List.compare_cons_cons]
    rfl

theorem length_write {fs : List Field} {ns : List Nat} (h : List.Forall₂ Holds fs ns) :
    (write fs ns).length = (fs.map (·.width + 1)).sum := by
  induction h with
  | nil => rfl
  | cons _ _ ih =>
    rw [write, List.length_append, List.length_cons, length_lastDigits, ih, List.map_cons,
      List.sum_cons, Nat.add_assoc, Nat.add_comm 1]

theorem write_injective {fs : List Field} {ms ns : List Nat} (hm : List.Forall₂ Holds fs ms)
    (hn : List.Forall₂ Holds fs ns) (h : write fs ms = write fs ns) : ms = ns := by
  have hsame : compare (encodeChars (write fs ms)) (encodeChars (write fs ns)) = .eq := by
    rw [h]
    exact Std.ReflCmp.compare_self
  rw [compare_write hm hn] at hsame
  exact Std.LawfulEqOrd.eq_of_compare hsame

end Field

def dayOf (micros : Int) : Day := Day.ofCount (micros / microsPerDay + Day.epoch)

def ofDay (micros : Int) : Nat := (micros % microsPerDay).toNat

def fields : List Field :=
  [⟨2, '-'⟩, ⟨2, 'T'⟩, ⟨2, ':'⟩, ⟨2, ':'⟩, ⟨2, '.'⟩, ⟨6, 'Z'⟩]

def timeParts (n : Nat) : List Nat :=
  [n / 1000000 / 3600, n / 1000000 / 60 % 60, n / 1000000 % 60, n % 1000000]

def parts (micros : Int) : List Nat :=
  (dayOf micros).month :: (dayOf micros).day :: timeParts (ofDay micros)

theorem valid_dayOf (micros : Int) : (dayOf micros).Valid := Day.valid_ofCount _

theorem holds_parts (micros : Int) : List.Forall₂ Field.Holds fields (parts micros) := by
  have hmonth := Day.month_le (valid_dayOf micros)
  have hday := Day.day_le (valid_dayOf micros)
  have hofDay : ofDay micros < 86400000000 := by
    rw [ofDay, microsPerDay]
    omega
  simp only [fields, parts, timeParts, List.forall₂_cons, List.Forall₂.nil, Field.Holds,
    Nat.reducePow, and_true]
  omega

theorem compare_timeParts (m n : Nat) : compare (timeParts m) (timeParts n) = compare m n := by
  have hhours : ∀ n : Nat, n / 1000000 / 60 / 60 = n / 1000000 / 3600 := fun n => by omega
  rw [compare_digits 1000000 m n, compare_digits 60 (m / 1000000) (n / 1000000),
    compare_digits 60 (m / 1000000 / 60) (n / 1000000 / 60), hhours, hhours]
  simp only [timeParts, List.compare_cons_cons, List.compare_nil_nil, Ordering.then_assoc,
    Ordering.then_eq]

/-- The parts of an instant, the year first, have the order of time. -/
theorem compare_parts (a b : Int) :
    (compare (dayOf a).year (dayOf b).year).then (compare (parts a) (parts b)) = compare a b := by
  have hday : compare (a / microsPerDay) (b / microsPerDay) =
      compare (dayOf a).count (dayOf b).count := by
    rw [dayOf, dayOf, Day.count_ofCount, Day.count_ofCount]
    simp only [Int.compare_eq_ite_lt]
    split_ifs <;> first | rfl | omega
  have hab : compare a b =
      (compare (a / microsPerDay) (b / microsPerDay)).then (compare (ofDay a) (ofDay b)) := by
    simp only [ofDay, microsPerDay]
    refine compare_eq_then (by omega) (by omega) fun h => ?_
    rw [Int.compare_eq_ite_lt, Nat.compare_eq_ite_lt]
    split_ifs <;> first | rfl | omega
  rw [hab, hday, Day.compare_count (valid_dayOf a) (valid_dayOf b)]
  simp only [parts, List.compare_cons_cons, compare_timeParts, Ordering.then_assoc]

def IsDated (micros : Int) : Prop :=
  firstYear ≤ (dayOf micros).year ∧ (dayOf micros).year ≤ lastYear

/-- Whether the year of an instant is written without a sign. -/
def InFourDigits (micros : Int) : Prop := 0 ≤ (dayOf micros).year ∧ (dayOf micros).year ≤ 9999

instance (micros : Int) : Decidable (InFourDigits micros) := inferInstanceAs (Decidable (_ ∧ _))

variable {a b : Int}

theorem year_plain {y : Int} (h : 0 ≤ y ∧ y ≤ 9999) : year y = padded 4 y.toNat := if_pos h

theorem toList_year_signed {y : Int} (h : ¬ (0 ≤ y ∧ y ≤ 9999)) :
    (year y).toList = (if y < 0 then '-' else '+') :: (padded 4 y.natAbs).toList := by
  rw [year, if_neg h, String.toList_append]
  split <;> rfl

theorem digits?_signed {y : Int} (h : ¬ (0 ≤ y ∧ y ≤ 9999)) : digits? (year y).toList = none := by
  rw [toList_year_signed h]
  apply digits?_cons_of_not_isDigit
  split <;> decide

theorem year_injective : Function.Injective year := by
  intro y z h
  by_cases hy : 0 ≤ y ∧ y ≤ 9999
  · have hz : 0 ≤ z ∧ z ≤ 9999 := by
      by_contra hz
      have hdigits := digits?_signed hz
      rw [← h, year_plain hy, digits?_padded] at hdigits
      cases hdigits
    rw [year_plain hy, year_plain hz] at h
    have := padded_injective 4 h
    omega
  · have hz : ¬ (0 ≤ z ∧ z ≤ 9999) := by
      intro hz
      have hdigits := digits?_signed hy
      rw [h, year_plain hz, digits?_padded] at hdigits
      cases hdigits
    have hlist := congrArg String.toList h
    rw [toList_year_signed hy, toList_year_signed hz] at hlist
    obtain ⟨hsign, hdigits⟩ := List.cons.inj hlist
    have habs := padded_injective 4 (String.toList_injective hdigits)
    split_ifs at hsign <;> first | omega | exact absurd hsign (by decide)

theorem instant_eq_date (h : IsDated a) :
    instant a = date (dayOf a) ++ "T" ++ timeOfDay (ofDay a) ++ "Z" := if_pos h

theorem instant_eq_decimal (h : ¬ IsDated a) : instant a = decimal a := if_neg h

theorem toList_instant (h : IsDated a) :
    (instant a).toList = (year (dayOf a).year).toList ++ '-' :: Field.write fields (parts a) := by
  have hparts := holds_parts a
  simp only [fields, parts, timeParts, List.forall₂_cons, Field.Holds] at hparts
  obtain ⟨hmonth, hday, hhour, hminute, hsecond, hmicro, -⟩ := hparts
  have htwo : 0 < 2 := by decide
  have hsix : 0 < 6 := by decide
  rw [instant_eq_date h, date, timeOfDay]
  simp only [String.toList_append, List.append_assoc, toList_padded htwo hmonth,
    toList_padded htwo hday, toList_padded htwo hhour, toList_padded htwo hminute,
    toList_padded htwo hsecond, toList_padded hsix hmicro]
  rfl

theorem eq_of_parts (hyear : (dayOf a).year = (dayOf b).year) (hparts : parts a = parts b) :
    a = b := by
  have hcompare := compare_parts a b
  have hself : compare (parts b) (parts b) = .eq := Std.ReflCmp.compare_self
  rw [compare_eq_iff_eq.mpr hyear, hparts, hself] at hcompare
  exact Std.LawfulEqOrd.eq_of_compare hcompare.symm

/-- A date ends with a letter, which no number has. -/
theorem instant_ne_decimal (h : IsDated a) : instant a ≠ decimal b := by
  intro heq
  have hmem : 'Z' ∈ (decimal b).toList := by
    rw [← heq, instant_eq_date h, String.toList_append]
    exact List.mem_append_right _ (List.mem_singleton.mpr rfl)
  exact not_mem_decimal (by decide) (by decide) b hmem

theorem apostrophe_not_mem_instant : '\'' ∉ (instant a).toList := by
  have hpadded : ∀ width n, '\'' ∉ (padded width n).toList := by
    intro width n h
    exact absurd (isDigit_of_mem (digits?_padded width n) h) (by decide)
  by_cases h : IsDated a
  · have hyear : ∀ y, '\'' ∉ (year y).toList := by
      intro y
      rw [year]
      split_ifs <;> simp [hpadded]
    simp [instant_eq_date h, date, timeOfDay, hpadded, hyear]
  · rw [instant_eq_decimal h]
    exact not_mem_decimal (by decide) (by decide) a

theorem instant_injective : Function.Injective instant := by
  intro a b h
  by_cases ha : IsDated a <;> by_cases hb : IsDated b
  · have hlist := congrArg String.toList h
    rw [toList_instant ha, toList_instant hb] at hlist
    have hlength := (Field.length_write (holds_parts a)).trans
      (Field.length_write (holds_parts b)).symm
    obtain ⟨hyear, hrest⟩ := List.append_inj' hlist (congrArg (· + 1) hlength)
    exact eq_of_parts (year_injective (String.toList_injective hyear))
      (Field.write_injective (holds_parts a) (holds_parts b) (List.cons.inj hrest).2)
  · rw [instant_eq_decimal hb] at h
    exact absurd h (instant_ne_decimal ha)
  · rw [instant_eq_decimal ha] at h
    exact absurd h.symm (instant_ne_decimal hb)
  · rw [instant_eq_decimal ha, instant_eq_decimal hb] at h
    exact decimal_injective h

theorem InFourDigits.isDated (h : InFourDigits a) : IsDated a := by
  obtain ⟨hlow, hhigh⟩ := h
  exact ⟨le_trans (by decide) hlow, hhigh.trans (by decide)⟩

theorem inFourDigits_iff :
    InFourDigits a ↔ -62167219200000000 ≤ a ∧ a < 253402300800000000 := by
  have hlow := Day.year_le_iff 0 (a / microsPerDay + Day.epoch)
  have hhigh := Day.year_le_iff 10000 (a / microsPerDay + Day.epoch)
  have hzero : Day.before 0 = -366 := by decide
  have hlast : Day.before 10000 = 3652059 := by decide
  rw [hzero, microsPerDay, Day.epoch] at hlow
  rw [hlast, microsPerDay, Day.epoch] at hhigh
  rw [InFourDigits, dayOf, microsPerDay, Day.epoch]
  omega

theorem holds_all (h : InFourDigits a) :
    List.Forall₂ Field.Holds (⟨4, '-'⟩ :: fields) ((dayOf a).year.toNat :: parts a) := by
  refine .cons ?_ (holds_parts a)
  obtain ⟨hlow, hhigh⟩ := h
  show (dayOf a).year.toNat < 10000
  omega

theorem toList_instant_all (h : InFourDigits a) :
    (instant a).toList =
      Field.write (⟨4, '-'⟩ :: fields) ((dayOf a).year.toNat :: parts a) := by
  obtain ⟨hyear, -⟩ := List.forall₂_cons.mp (holds_all h)
  rw [toList_instant h.isDated, year_plain h, toList_padded (by decide) hyear]
  rfl

theorem compare_instant (ha : InFourDigits a) (hb : InFourDigits b) :
    compare (encode (instant a)) (encode (instant b)) = compare a b := by
  have hyear : compare (dayOf a).year.toNat (dayOf b).year.toNat =
      compare (dayOf a).year (dayOf b).year := by
    obtain ⟨hlow, -⟩ := ha
    obtain ⟨hlow', -⟩ := hb
    rw [Nat.compare_eq_ite_lt, Int.compare_eq_ite_lt]
    split_ifs <;> first | rfl | omega
  rw [encode, encode, toList_instant_all ha, toList_instant_all hb,
    Field.compare_write (holds_all ha) (holds_all hb), List.compare_cons_cons, hyear, compare_parts]

end Iso

namespace SortableTime

theorem text_injective : Function.Injective text := by
  intro t u h
  have hmicros := Int64.toInt_inj.mp (Iso.instant_injective h)
  cases t
  cases u
  exact congrArg mk hmicros

/-- No two instants have the same text, be they dates before or after 1970, of years with a sign or
without, or numbers. In the years of four digits, the bytes of the texts have the order of time. -/
theorem text_chronological (a b : Int64) :
    ((SortableTime.mk a).text = (SortableTime.mk b).text ↔ a = b) ∧
    (Iso.InFourDigits a.toInt ↔
      -62167219200000000 ≤ a.toInt ∧ a.toInt < 253402300800000000) ∧
    (Iso.InFourDigits a.toInt → Iso.InFourDigits b.toInt →
      compare (Utf8.encode (SortableTime.mk a).text) (Utf8.encode (SortableTime.mk b).text) =
        compare a.toInt b.toInt) := by
  refine ⟨⟨fun h => ?_, fun h => congrArg (fun a => (SortableTime.mk a).text) h⟩,
    Iso.inFourDigits_iff, Iso.compare_instant⟩
  exact congrArg micros (text_injective h)

theorem text_chronological_edges :
    let first : Int64 := -62167219200000000
    let last : Int64 := 253402300799999999
    (SortableTime.mk first).text = "0000-01-01T00:00:00.000000Z" ∧
    (SortableTime.mk last).text = "9999-12-31T23:59:59.999999Z" ∧
    (SortableTime.mk (first - 1)).text = "-0001-12-31T23:59:59.999999Z" ∧
    (SortableTime.mk (last + 1)).text = "+10000-01-01T00:00:00.000000Z" ∧
    (SortableTime.mk 9223372036854775807).text = "9223372036854775807" ∧
    (Iso.InFourDigits first.toInt ∧ Iso.InFourDigits last.toInt ∧
      compare (Utf8.encode (SortableTime.mk first).text) (Utf8.encode (SortableTime.mk last).text) =
        compare first.toInt last.toInt) ∧
    ¬ Iso.InFourDigits (first - 1).toInt ∧ ¬ Iso.InFourDigits (last + 1).toInt := by
  intro first last
  have hfirst : Iso.InFourDigits first.toInt := by decide
  have hlast : Iso.InFourDigits last.toInt := by decide
  obtain ⟨-, -, horder⟩ := text_chronological first last
  exact ⟨by decide, by decide, by decide, by decide, by decide,
    ⟨hfirst, hlast, horder hfirst hlast⟩, by decide, by decide⟩

end SortableTime

end TraceIndex
