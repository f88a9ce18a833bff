import Mathlib.Data.List.Basic
import TraceIndex.Proofs.Keyspace

namespace TraceIndex

theorem Bytes.ofLittle_little (n v : Nat) : ofLittle (little n v) = v % room n := by
  induction n generalizing v with
  | zero => simp [little, ofLittle, room, Nat.mod_one]
  | succ n ih =>
    have hbyte : (UInt8.ofNat v).toNat = v % 256 := by simp
    rw [little, ofLittle, ih, hbyte, room, Nat.mod_mul]

theorem Bytes.length_little (n v : Nat) : (little n v).length = n := by
  induction n generalizing v with
  | zero => rfl
  | succ n ih => rw [little, List.length_cons, ih]

theorem Bytes.length_big (n v : Nat) : (big n v).length = n := by
  rw [big, List.length_reverse, length_little]

theorem Bytes.ofBig_big {n v : Nat} (h : v < room n) : ofBig (big n v) = v := by
  rw [ofBig, big, List.reverse_reverse, ofLittle_little, Nat.mod_eq_of_lt h]

theorem Bytes.big_inj {n v w : Nat} (hv : v < room n) (hw : w < room n) (h : big n v = big n w) :
    v = w := by
  have hlittle : little n v = little n w := List.reverse_injective h
  have hmod := congrArg ofLittle hlittle
  rwa [ofLittle_little, ofLittle_little, Nat.mod_eq_of_lt hv, Nat.mod_eq_of_lt hw] at hmod

theorem Utf8.encode_injective : Function.Injective encode := by
  intro a b h
  have hbytes : a.toList.utf8Encode = b.toList.utf8Encode := congrArg List.toByteArray h
  rw [String.utf8Encode_toList, String.utf8Encode_toList] at hbytes
  exact String.toByteArray_inj.mp hbytes

theorem SortableTime.bytes_injective : Function.Injective bytes := by
  rintro ⟨a⟩ ⟨b⟩ h
  have hlt : ∀ n : UInt64, n.toNat < Bytes.room width := fun n => n.toNat_lt
  have hflip := UInt64.toNat_inj.mp (Bytes.big_inj (hlt _) (hlt _) h)
  have hbits := (BitVec.xor_left_inj signBit.toBitVec).mp (congrArg UInt64.toBitVec hflip)
  exact congrArg SortableTime.mk (Int64.toBitVec_inj.mp hbits)

namespace Cell

theorem toNat_map_injective :
    Function.Injective fun bytes : Bytes => bytes.map fun b => (b.toNat : Int) := by
  intro a b h
  apply List.map_injective_iff.mpr _ h
  intro x y hxy
  exact UInt8.toNat_inj.mp (Int.ofNat.inj hxy)

theorem eq_of_content {a b : Cell} (hkind : a.kind = b.kind) (h : a.content = b.content) :
    a = b := by
  cases a with
  | bigint n =>
    cases b with
    | bigint m => exact congrArg bigint (Int64.toInt_inj.mp (List.singleton_inj.mp h))
    | int | text | blob | timestamp => simp [kind] at hkind
  | int n =>
    cases b with
    | int m => exact congrArg int (Int32.toInt_inj.mp (List.singleton_inj.mp h))
    | bigint | text | blob | timestamp => simp [kind] at hkind
  | text s =>
    cases b with
    | text s' => exact congrArg text (Utf8.encode_injective (toNat_map_injective h))
    | bigint | int | blob | timestamp => simp [kind] at hkind
  | blob bytes =>
    cases b with
    | blob bytes' => exact congrArg blob (toNat_map_injective h)
    | bigint | int | text | timestamp => simp [kind] at hkind
  | timestamp t =>
    cases b with
    | timestamp t' => exact congrArg timestamp (SortableTime.bytes_injective (toNat_map_injective h))
    | bigint | int | text | blob => simp [kind] at hkind

instance : Std.LawfulEqOrd Cell where
  compare_self {a} := by
    change compareLex (compareOn kind) (compareOn content) a a = .eq
    simp [compareLex, compareOn]
  eq_of_compare {a b} h := by
    change compareLex (compareOn kind) (compareOn content) a b = .eq at h
    rw [compareLex, Ordering.then_eq_eq] at h
    exact eq_of_content (Std.LawfulEqOrd.eq_of_compare h.1) (Std.LawfulEqOrd.eq_of_compare h.2)

end Cell

namespace Rows

theorem keys_place (r : Row) (rows : List Row) (key : List Cell) :
    key ∈ (place r rows).map (·.key) ↔ key = r.key ∨ key ∈ rows.map (·.key) := by
  induction rows with
  | nil => simp [place]
  | cons s rest ih =>
    simp only [place]
    split
    · exact List.mem_cons
    · rename_i heq
      have hkey : r.key = s.key := Std.LawfulEqOrd.eq_of_compare heq
      simp only [List.map_cons, List.mem_cons, hkey]
      tauto
    · simp only [List.map_cons, List.mem_cons, ih]
      tauto

theorem keys_upsert (rows : Rows) (r : Row) (key : List Cell) :
    key ∈ (rows.upsert r).keys ↔ key = r.key ∨ key ∈ rows.keys :=
  keys_place r rows.toList key

end Rows

namespace Keyspace

def keys (k : Keyspace) (t : Table) : List (List Cell) := (k.rows.get t).keys

def Leaves (k : Keyspace) (t : Table) (key : List Cell) (st : Statement) : Prop :=
  k.applies st ∧ st.table = t ∧ st.primaryKey? = some key

variable {k : Keyspace} {st : Statement}

theorem mem_keys_tell (t : Table) (key : List Cell) :
    key ∈ (k.tell st).keys t ↔ key ∈ k.keys t ∨ k.Leaves t key st := by
  cases h : k.rowOf st with
  | error failure =>
    have happlies : ¬ k.applies st := fun ha => by
      obtain ⟨row, hrow⟩ := applies_iff.mp ha
      rw [h] at hrow
      cases hrow
    rw [keys, keys, rows_of_error h]
    exact (or_iff_left fun hl => happlies hl.1).symm
  | ok row =>
    have hleaves : k.Leaves t key st ↔ t = st.table ∧ key = row.key := by
      simp only [Leaves, applies_iff.mpr ⟨row, h⟩, key_of_rowOf h, Option.some.injEq, true_and]
      exact and_congr eq_comm eq_comm
    rw [keys, keys, rows_of_ok h, hleaves, PerTable.get_set]
    by_cases ht : t = st.table
    · simp only [ht, ↓reduceIte, Rows.keys_upsert, true_and, or_comm]
    · simp only [ht, ↓reduceIte, false_and, or_false]

theorem leaves_tell (t : Table) (key : List Cell) (other : Statement) :
    (k.tell st).Leaves t key other ↔ k.Leaves t key other := by
  rw [Leaves, Leaves, applies, applies, reply_congr tell_options tell_faults]

/-- Statements add the keys of the rows that they leave, and take none away. -/
theorem mem_keys_tellAll (t : Table) (key : List Cell) (sts : List Statement) :
    key ∈ (k.tellAll sts).keys t ↔ key ∈ k.keys t ∨ ∃ st ∈ sts, k.Leaves t key st := by
  induction sts generalizing k with
  | nil => simp
  | cons st sts ih =>
    rw [tellAll_cons, ih, mem_keys_tell, or_assoc]
    simp only [leaves_tell, List.mem_cons, exists_eq_or_imp]

end Keyspace

end TraceIndex
