import TraceIndex.Packed.Form
import TraceIndex.Packed.Reader
import TraceIndex.Proofs.Keys
import TraceIndex.Proofs.Texts

namespace TraceIndex

namespace Packed

theorem take?_append (first rest : Bytes) :
    take? first.length (first ++ rest) = some (first, rest) := by
  simp only [take?, List.take_left, List.drop_left, ↓reduceIte]

theorem number?_big {width n : Nat} (h : n < Bytes.room width) (rest : Bytes) :
    number? width (Bytes.big width n ++ rest) = some (n, rest) := by
  have htake := take?_append (Bytes.big width n) rest
  rw [Bytes.length_big] at htake
  rw [number?, htake, Option.map_some, Bytes.ofBig_big h]

theorem long?_big (head : Nat → Head) (width : Nat) {n : Nat} (h : n < Bytes.room width)
    (rest : Bytes) :
    long? head width (Bytes.big width n ++ rest) = some (head n, rest) := by
  rw [long?, number?_big h, Option.map_some]

theorem ofComplement_emod {width : Nat} {n : Int} (low : -(Bytes.room width) ≤ 2 * n)
    (high : 2 * n < Bytes.room width) : ofComplement width (n % Bytes.room width).toNat = n := by
  unfold ofComplement
  by_cases hn : 0 ≤ n
  · rw [Int.emod_eq_of_lt hn (by omega), if_pos (by omega)]
    omega
  · have hmod : n % Bytes.room width = n + Bytes.room width := by
      rw [← Int.add_emod_right, Int.emod_eq_of_lt (by omega) (by omega)]
    rw [hmod, if_neg (by omega)]
    omega

section Heads

variable {length : Nat} (rest : Bytes)

theorem head?_textHead (h : length < 0x100000000) :
    head? (textHead length ++ rest) = some (.text length, rest) := by
  unfold textHead
  split
  · rename_i hshort
    have hm : (UInt8.ofNat (0xA0 + length)).toNat = 0xA0 + length := Utf8.toNat_ofNat (by omega)
    simp only [List.singleton_append, head?, UInt8.lt_iff_toNat_lt, hm, UInt8.reduceToNat]
    rw [if_neg (by omega), if_neg (by omega), if_neg (by omega), if_pos (by omega),
      Nat.add_sub_cancel_left]
  · split
    · rename_i hbyte
      exact long?_big .text 1 hbyte rest
    · split
      · rename_i hword
        exact long?_big .text 2 hword rest
      · exact long?_big .text 4 h rest

theorem head?_arrayHead (h : length < 0x100000000) :
    head? (arrayHead length ++ rest) = some (.array length, rest) := by
  unfold arrayHead
  split
  · rename_i hshort
    have hm : (UInt8.ofNat (0x90 + length)).toNat = 0x90 + length := Utf8.toNat_ofNat (by omega)
    simp only [List.singleton_append, head?, UInt8.lt_iff_toNat_lt, hm, UInt8.reduceToNat]
    rw [if_neg (by omega), if_neg (by omega), if_pos (by omega), Nat.add_sub_cancel_left]
  · split
    · rename_i hword
      exact long?_big .array 2 hword rest
    · exact long?_big .array 4 h rest

theorem head?_mapHead (h : length < 0x100000000) :
    head? (mapHead length ++ rest) = some (.map length, rest) := by
  unfold mapHead
  split
  · rename_i hshort
    have hm : (UInt8.ofNat (0x80 + length)).toNat = 0x80 + length := Utf8.toNat_ofNat (by omega)
    simp only [List.singleton_append, head?, UInt8.lt_iff_toNat_lt, hm, UInt8.reduceToNat]
    rw [if_neg (by omega), if_pos (by omega), Nat.add_sub_cancel_left]
  · split
    · rename_i hword
      exact long?_big .map 2 hword rest
    · exact long?_big .map 4 h rest

end Heads

section Values

variable (room fuel : Nat)

theorem value?_of_unsigned {bytes : Bytes} (width : Nat) {n : UInt64} {rest : Bytes}
    (hhead : head? bytes = some (.unsigned width, Bytes.big width n.toNat ++ rest))
    (h : n.toNat < Bytes.room width) :
    value? room (fuel + 1) bytes = some (unsigned n, rest) := by
  rw [value?, hhead]
  simp only [number?_big h, Option.map_some, UInt64.ofNat_toNat]

theorem value?_of_signed {bytes : Bytes} (width : Nat) {n : Int64} {rest : Bytes}
    (hhead : head? bytes = some (.signed width, complement width n.toInt ++ rest))
    (low : -(Bytes.room width) ≤ 2 * n.toInt) (high : 2 * n.toInt < Bytes.room width) :
    value? room (fuel + 1) bytes = some (signed n, rest) := by
  have hlt : (n.toInt % Bytes.room width).toNat < Bytes.room width := by
    have hpos : (0 : Int) < Bytes.room width := by omega
    have hmod := Int.emod_lt_of_pos n.toInt hpos
    have hnonneg := Int.emod_nonneg n.toInt (Int.ne_of_gt hpos)
    omega
  rw [value?, hhead]
  simp only [complement, number?_big hlt, Option.map_some, ofComplement_emod low high,
    Int64.ofInt_toInt]

/-- A number is read back through each of the widths that it is written with. -/
theorem value?_unsigned (n : UInt64) (rest : Bytes) :
    value? room (fuel + 1) (print (unsigned n) ++ rest) = some (unsigned n, rest) := by
  rw [print]
  unfold unsignedBytes
  split
  · rename_i hshort
    have hm : (UInt8.ofNat n.toNat).toNat = n.toNat := Utf8.toNat_ofNat (by omega)
    have hvalue : (UInt8.ofNat n.toNat).toUInt64 = n := by
      apply UInt64.toNat_inj.mp
      rw [UInt8.toNat_toUInt64, hm]
    have hhead : head? (.ofNat n.toNat :: rest) = some (.whole (.unsigned n), rest) := by
      simp only [head?, UInt8.lt_iff_toNat_lt, hm, UInt8.reduceToNat, hvalue]
      rw [if_pos (by omega)]
    rw [List.singleton_append, value?, hhead]
  · split
    · rename_i hbyte
      exact value?_of_unsigned room fuel 1 rfl hbyte
    · split
      · rename_i hword
        exact value?_of_unsigned room fuel 2 rfl hword
      · split
        · rename_i hlong
          exact value?_of_unsigned room fuel 4 rfl hlong
        · exact value?_of_unsigned room fuel 8 rfl n.toNat_lt

theorem value?_signed (n : Int64) (rest : Bytes) :
    value? room (fuel + 1) (print (signed n) ++ rest) = some (signed n, rest) := by
  have hone : (Bytes.room 1 : Int) = 0x100 := rfl
  have htwo : (Bytes.room 2 : Int) = 0x10000 := rfl
  have hfour : (Bytes.room 4 : Int) = 0x100000000 := rfl
  have height : (Bytes.room 8 : Int) = 0x10000000000000000 := rfl
  have hlow := n.le_toInt
  have hhigh := n.toInt_lt
  rw [print]
  unfold signedBytes
  split
  · have hm : (UInt8.ofNat (n.toInt % 0x100).toNat).toNat = (n.toInt % 0x100).toNat :=
      Utf8.toNat_ofNat (by omega)
    have hvalue : ofComplement 1 (n.toInt % 0x100).toNat = n.toInt :=
      ofComplement_emod (by omega) (by omega)
    have hhead : head? (.ofNat (n.toInt % 0x100).toNat :: rest) =
        some (.whole (.signed n), rest) := by
      simp only [head?, UInt8.lt_iff_toNat_lt, UInt8.le_iff_toNat_le, hm, UInt8.reduceToNat, hvalue,
        Int64.ofInt_toInt]
      rw [if_neg (by omega), if_neg (by omega), if_neg (by omega), if_neg (by omega),
        if_pos (by omega)]
    have hbytes : complement 1 n.toInt = [.ofNat (n.toInt % 0x100).toNat] := rfl
    rw [hbytes, List.singleton_append, value?, hhead]
  · split
    · exact value?_of_signed room fuel 1 rfl (by omega) (by omega)
    · split
      · exact value?_of_signed room fuel 2 rfl (by omega) (by omega)
      · split
        · exact value?_of_signed room fuel 4 rfl (by omega) (by omega)
        · exact value?_of_signed room fuel 8 rfl (by omega) (by omega)

end Values

/-- A value is read back from how it is written, where values may nest as deep as it does. -/
structure Reads (depth : Nat) (v : Packed) : Prop where
  written : 0 < (print v).length
  value : ∀ room fuel rest, depth ≤ room → 2 * (print v).length ≤ fuel →
    value? room fuel (print v ++ rest) = some (v, rest)

theorem reads_of_step {v : Packed}
    (h : ∀ room fuel rest, value? room (fuel + 1) (print v ++ rest) = some (v, rest))
    (depth : Nat) : Reads depth v := by
  have hwritten : 0 < (print v).length := by
    apply List.length_pos_iff.mpr
    intro hnil
    have hread := h 0 0 []
    rw [hnil, value?] at hread
    exact Option.some_ne_none _ hread.symm
  refine ⟨hwritten, ?_⟩
  intro room fuel rest _ hfuel
  obtain ⟨fuel, rfl⟩ := Nat.exists_eq_add_of_le' (show 1 ≤ fuel by omega)
  exact h room fuel rest

theorem reads_null (depth : Nat) : Reads depth nil := by
  refine reads_of_step (fun room fuel rest => ?_) depth
  have hhead : head? (print nil ++ rest) = some (.whole nil, rest) := rfl
  rw [value?, hhead]

theorem reads_integer (depth : Nat) (n : Int) : Reads depth (integer n) := by
  refine reads_of_step (fun room fuel rest => ?_) depth
  unfold integer
  split
  · exact value?_unsigned room fuel _ rest
  · exact value?_signed room fuel _ rest

theorem reads_text (depth : Nat) {s : String} (h : (Utf8.encode s).length < 0x100000000) :
    Reads depth (string s) := by
  refine reads_of_step (fun room fuel rest => ?_) depth
  have hbytes : print (string s) ++ rest =
      textHead (Utf8.encode s).length ++ (Utf8.encode s ++ rest) := by
    rw [string, print, List.append_assoc]
  rw [hbytes, value?, head?_textHead _ h]
  simp only [take?_append, Option.map_some]
  rfl

theorem items?_print {depth room : Nat} {items : List Packed} (h : ∀ v ∈ items, Reads depth v)
    (hroom : depth ≤ room) : ∀ (fuel : Nat) (rest : Bytes),
      2 * (printItems items).length + 1 ≤ fuel →
      items? room items.length fuel (printItems items ++ rest) = some (items, rest) := by
  induction items with
  | nil =>
    intro fuel rest hfuel
    obtain ⟨fuel, rfl⟩ := Nat.exists_eq_add_of_le' (show 1 ≤ fuel by omega)
    rw [items?, List.length_nil, if_pos rfl]
    rfl
  | cons v items ih =>
    intro fuel rest hfuel
    obtain ⟨fuel, rfl⟩ := Nat.exists_eq_add_of_le' (show 1 ≤ fuel by omega)
    obtain ⟨hv, hitems⟩ := List.forall_mem_cons.mp h
    have hlength : (printItems (v :: items)).length =
        (print v).length + (printItems items).length := by
      rw [printItems, List.length_append]
    have hwritten := hv.written
    have hread := hv.value room fuel (printItems items ++ rest) hroom (by omega)
    rw [printItems, List.append_assoc, items?, List.length_cons, if_neg (Nat.succ_ne_zero _), hread]
    simp only [Nat.add_sub_cancel, ih hitems fuel rest (by omega), Option.map_some]

theorem entries?_print {depth room : Nat} {entries : List (Packed × Packed)}
    (h : ∀ e ∈ entries, Reads depth e.1 ∧ Reads depth e.2) (hroom : depth ≤ room) :
    ∀ (fuel : Nat) (rest : Bytes), 2 * (printEntries entries).length + 1 ≤ fuel →
      entries? room entries.length fuel (printEntries entries ++ rest) = some (entries, rest) := by
  induction entries with
  | nil =>
    intro fuel rest hfuel
    obtain ⟨fuel, rfl⟩ := Nat.exists_eq_add_of_le' (show 1 ≤ fuel by omega)
    rw [entries?, List.length_nil, if_pos rfl]
    rfl
  | cons e entries ih =>
    intro fuel rest hfuel
    obtain ⟨fuel, rfl⟩ := Nat.exists_eq_add_of_le' (show 1 ≤ fuel by omega)
    obtain ⟨k, v⟩ := e
    obtain ⟨⟨hk, hv⟩, hentries⟩ :
        (Reads depth k ∧ Reads depth v) ∧ ∀ e ∈ entries, Reads depth e.1 ∧ Reads depth e.2 :=
      List.forall_mem_cons.mp h
    have hlength : (printEntries ((k, v) :: entries)).length =
        (print k).length + (print v).length + (printEntries entries).length := by
      rw [printEntries, List.length_append, List.length_append]
    have hbytes : printEntries ((k, v) :: entries) ++ rest =
        print k ++ (print v ++ (printEntries entries ++ rest)) := by
      rw [printEntries, List.append_assoc, List.append_assoc]
    have hwritten := hk.written
    have hkey := hk.value room fuel (print v ++ (printEntries entries ++ rest)) hroom (by omega)
    have hvalue := hv.value room fuel (printEntries entries ++ rest) hroom (by omega)
    rw [hbytes, entries?, List.length_cons, if_neg (Nat.succ_ne_zero _), hkey]
    simp only [hvalue, Nat.add_sub_cancel, ih hentries fuel rest (by omega), Option.map_some]

theorem reads_list {depth : Nat} {items : List Packed} (hlength : items.length < 0x100000000)
    (h : ∀ v ∈ items, Reads depth v) : Reads (depth + 1) (array items) := by
  have hprint : (print (array items)).length =
      (arrayHead items.length).length + (printItems items).length := by
    rw [print, List.length_append]
  have hhead : 0 < (arrayHead items.length).length := by
    unfold arrayHead
    split_ifs <;> exact Nat.succ_pos _
  refine ⟨by omega, ?_⟩
  intro room fuel rest hroom hfuel
  obtain ⟨fuel, rfl⟩ := Nat.exists_eq_add_of_le' (show 1 ≤ fuel by omega)
  have hread := items?_print h (show depth ≤ room - 1 by omega) fuel rest (by omega)
  rw [print, List.append_assoc, value?, head?_arrayHead _ hlength]
  simp only [if_neg (show room ≠ 0 by omega), hread, Option.map_some]

theorem reads_map {depth : Nat} {entries : List (Packed × Packed)}
    (hlength : entries.length < 0x100000000)
    (h : ∀ e ∈ entries, Reads depth e.1 ∧ Reads depth e.2) : Reads (depth + 1) (map entries) := by
  have hprint : (print (map entries)).length =
      (mapHead entries.length).length + (printEntries entries).length := by
    rw [print, List.length_append]
  have hhead : 0 < (mapHead entries.length).length := by
    unfold mapHead
    split_ifs <;> exact Nat.succ_pos _
  refine ⟨by omega, ?_⟩
  intro room fuel rest hroom hfuel
  obtain ⟨fuel, rfl⟩ := Nat.exists_eq_add_of_le' (show 1 ≤ fuel by omega)
  have hread := entries?_print h (show depth ≤ room - 1 by omega) fuel rest (by omega)
  rw [print, List.append_assoc, value?, head?_mapHead _ hlength]
  simp only [if_neg (show room ≠ 0 by omega), hread, Option.map_some]

theorem reads_record {depth : Nat} {members : List (String × Packed)}
    (hlength : members.length < 0x100000000)
    (hnames : ∀ m ∈ members, (Utf8.encode m.1).length < 0x100000000)
    (h : ∀ m ∈ members, Reads depth m.2) : Reads (depth + 1) (record members) := by
  apply reads_map
  · rwa [List.length_map]
  · intro e he
    obtain ⟨m, hm, rfl⟩ := List.mem_map.mp he
    exact ⟨reads_text depth (hnames m hm), h m hm⟩

theorem Reads.parse? {depth : Nat} {v : Packed} (h : Reads depth v) (hdepth : depth ≤ deepest) :
    parse? (print v) = some v := by
  have hread := h.value deepest (enough (print v)) [] hdepth (by rw [enough]; omega)
  rw [List.append_nil] at hread
  rw [Packed.parse?, hread, Option.map_some]

end Packed

end TraceIndex
