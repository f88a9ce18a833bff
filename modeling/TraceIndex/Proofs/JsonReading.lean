import TraceIndex.Proofs.JsonTokens

namespace TraceIndex.Json

/-- What a value begins with: it is told from a blank and from the end of a list. -/
def Starts (b : UInt8) : Prop := ¬ isBlank b ∧ b ≠ closeBracket

/-- A value is read back from how it is written, up to where it ends. -/
structure Reads (v : Json) : Prop where
  starts : ∃ b rest, print v = b :: rest ∧ Starts b
  value : ∀ fuel rest, Ends rest → 2 * (print v).length ≤ fuel →
    value? fuel (print v ++ rest) = some (v, rest)

theorem skipBlanks_of_starts {b : UInt8} (h : ¬ isBlank b) (rest : Bytes) :
    skipBlanks (b :: rest) = b :: rest :=
  List.dropWhile_cons_of_neg h

def Blanks (bytes : Bytes) : Prop := ∀ b ∈ bytes, isBlank b

instance (bytes : Bytes) : Decidable (Blanks bytes) :=
  decidable_of_iff (bytes.all isBlank) List.all_eq_true

theorem blanks_nil : Blanks [] := by decide

theorem skipBlanks_append {gap : Bytes} (hgap : Blanks gap) (rest : Bytes) :
    skipBlanks (gap ++ rest) = skipBlanks rest :=
  List.dropWhile_append_of_pos hgap

theorem skipBlanks_mark {gap : Bytes} (hgap : Blanks gap) {b : UInt8} (hb : ¬ isBlank b)
    (rest : Bytes) : skipBlanks (gap ++ b :: rest) = b :: rest := by
  rw [skipBlanks_append hgap, skipBlanks_of_starts hb]

theorem ne_of_number {b c : UInt8} (h : b = minus ∨ isDigit b) (hc : ¬ (c = minus ∨ isDigit c)) :
    b ≠ c := by
  rintro rfl
  exact hc h

theorem starts_of_number {b : UInt8} (h : b = minus ∨ isDigit b) : Starts b := by
  refine ⟨?_, ne_of_number h (by decide)⟩
  have hspace : b ≠ 0x20 := ne_of_number h (by decide)
  have htab : b ≠ 0x09 := ne_of_number h (by decide)
  have hfeed : b ≠ 0x0A := ne_of_number h (by decide)
  have hreturn : b ≠ 0x0D := ne_of_number h (by decide)
  simp [isBlank, hspace, htab, hfeed, hreturn]

theorem ends_comma (rest : Bytes) : Ends (comma :: rest) :=
  ⟨by decide, by decide, by decide, by decide⟩

theorem ends_closeBracket (rest : Bytes) : Ends (closeBracket :: rest) :=
  ⟨by decide, by decide, by decide, by decide⟩

theorem ends_closeBrace (rest : Bytes) : Ends (closeBrace :: rest) :=
  ⟨by decide, by decide, by decide, by decide⟩

theorem value?_quote (fuel : Nat) (rest : Bytes) :
    value? (fuel + 1) (quote :: rest) =
      (inside? [] rest).map (fun r => (string r.1, r.2)) :=
  rfl

theorem value?_bracket (fuel : Nat) (bytes : Bytes) :
    value? (fuel + 1) (openBracket :: bytes) =
      match skipBlanks bytes with
      | closeBracket :: rest => some (array [], rest)
      | _ => (items? fuel bytes).map (fun r => (array r.1, r.2)) :=
  rfl

theorem value?_brace (fuel : Nat) (bytes : Bytes) :
    value? (fuel + 1) (openBrace :: bytes) =
      match skipBlanks bytes with
      | closeBrace :: rest => some (object [], rest)
      | _ => (members? fuel bytes).map (fun r => (object r.1, r.2)) :=
  rfl

theorem value?_openBracket (fuel : Nat) {b : UInt8} (h : Starts b) (rest : Bytes) :
    value? (fuel + 1) (openBracket :: b :: rest) =
      (items? fuel (b :: rest)).map fun r => (array r.1, r.2) := by
  rw [value?_bracket, skipBlanks_of_starts h.1]
  split
  · rename_i heq
    exact absurd (List.cons.inj heq).1 h.2
  · rfl

theorem value?_openBrace (fuel : Nat) (rest : Bytes) :
    value? (fuel + 1) (openBrace :: quote :: rest) =
      (members? fuel (quote :: rest)).map fun r => (object r.1, r.2) :=
  rfl

theorem value?_number (fuel : Nat) {b : UInt8} (h : b = minus ∨ isDigit b) (rest : Bytes) :
    value? (fuel + 1) (b :: rest) = (number? (b :: rest)).map fun r => (number r.1, r.2) := by
  rw [value?, skipBlanks_of_starts (starts_of_number h).1]
  split
  · rename_i heq
    cases heq
  · rename_i heq
    exact absurd (List.cons.inj heq).1 (ne_of_number h (by decide))
  · rename_i heq
    exact absurd (List.cons.inj heq).1 (ne_of_number h (by decide))
  · rename_i heq
    exact absurd (List.cons.inj heq).1 (ne_of_number h (by decide))
  · rename_i heq
    rw [← (List.cons.inj heq).1, if_pos h]

section Steps

variable {fuel : Nat} {bytes gap rest : Bytes} {v : Json}

theorem items?_more (hgap : Blanks gap) (h : value? fuel bytes = some (v, gap ++ comma :: rest)) :
    items? (fuel + 1) bytes = (items? fuel rest).map fun r => (v :: r.1, r.2) := by
  have hmark := skipBlanks_mark hgap (show ¬ isBlank comma by decide) rest
  rw [items?, h]
  simp only [hmark]
  rfl

theorem items?_last (hgap : Blanks gap)
    (h : value? fuel bytes = some (v, gap ++ closeBracket :: rest)) :
    items? (fuel + 1) bytes = some ([v], rest) := by
  have hmark := skipBlanks_mark hgap (show ¬ isBlank closeBracket by decide) rest
  rw [items?, h]
  simp only [hmark]
  rfl

def afterMember (fuel : Nat) (m : Bytes × Json) (rest : Bytes) :
    Option (List (Bytes × Json) × Bytes) :=
  match skipBlanks rest with
  | comma :: rest => (members? fuel rest).map fun r => (m :: r.1, r.2)
  | closeBrace :: rest => some ([m], rest)
  | _ => none

theorem afterMember_comma (hgap : Blanks gap) (m : Bytes × Json) (rest : Bytes) :
    afterMember fuel m (gap ++ comma :: rest) =
      (members? fuel rest).map fun r => (m :: r.1, r.2) := by
  rw [afterMember, skipBlanks_mark hgap (by decide)]
  rfl

theorem afterMember_closeBrace (hgap : Blanks gap) (m : Bytes × Json) (rest : Bytes) :
    afterMember fuel m (gap ++ closeBrace :: rest) = some ([m], rest) := by
  rw [afterMember, skipBlanks_mark hgap (by decide)]
  rfl

theorem members?_member {before key middle : Bytes} (hbefore : Blanks before)
    (hmiddle : Blanks middle) (hkey : inside? [] (key ++ quote :: (middle ++ colon :: bytes)) =
      some (key, middle ++ colon :: bytes)) (h : value? fuel bytes = some (v, rest)) :
    members? (fuel + 1) (before ++ quote :: (key ++ quote :: (middle ++ colon :: bytes))) =
      afterMember fuel (key, v) rest := by
  have hquote := skipBlanks_mark hbefore (show ¬ isBlank quote by decide)
    (key ++ quote :: (middle ++ colon :: bytes))
  have hcolon := skipBlanks_mark hmiddle (show ¬ isBlank colon by decide) bytes
  rw [members?, hquote]
  split
  · rename_i heq
    obtain ⟨-, rfl⟩ := List.cons.inj heq
    simp only [hkey, hcolon]
    split
    · rename_i heq
      obtain ⟨-, rfl⟩ := List.cons.inj heq
      simp only [h]
      rfl
    · rename_i hne
      exact absurd rfl (hne _)
  · rename_i hne
    exact absurd rfl (hne _)

theorem members?_escape (k : String) (h : value? fuel bytes = some (v, rest)) :
    members? (fuel + 1) (quote :: (escape k ++ quote :: colon :: bytes)) =
      afterMember fuel (escape k, v) rest :=
  members?_member blanks_nil blanks_nil (inside?_escape k _) h

end Steps

theorem reads_null : Reads null := by
  refine ⟨⟨_, _, rfl, by decide, by decide⟩, ?_⟩
  intro fuel rest _ hfuel
  obtain ⟨fuel, rfl⟩ := Nat.exists_eq_add_of_le' (show 1 ≤ fuel by
    have : 2 * (print null).length = 8 := by decide
    omega)
  rfl

theorem reads_text (s : String) : Reads (text s) := by
  refine ⟨⟨quote, _, rfl, by decide, by decide⟩, ?_⟩
  intro fuel rest _ hfuel
  cases fuel with
  | zero => simp [text, print] at hfuel
  | succ fuel =>
    have hprint : print (text s) ++ rest = quote :: (escape s ++ quote :: rest) := by
      simp [text, print]
    rw [hprint, value?_quote, inside?_escape]
    rfl

theorem reads_integer (n : Int) : Reads (integer n) := by
  obtain ⟨b, bytes, hbytes, hb⟩ := (numeral_decimal n).head
  refine ⟨⟨b, bytes, hbytes, starts_of_number hb⟩, ?_⟩
  intro fuel rest hrest hfuel
  have hprint : print (integer n) = b :: bytes := hbytes
  cases fuel with
  | zero => simp [hprint] at hfuel
  | succ fuel =>
    have hread := number?_decimal n hrest
    rw [hbytes] at hread
    rw [hprint, List.cons_append, value?_number fuel hb]
    rw [List.cons_append] at hread
    rw [hread, integer, hbytes]
    rfl

theorem items?_print {items : List Json} (hne : items ≠ []) (h : ∀ v ∈ items, Reads v) :
    ∀ (fuel : Nat) (rest : Bytes), 2 * (printItems items).length + 1 ≤ fuel →
      items? fuel (printItems items ++ closeBracket :: rest) = some (items, rest) := by
  induction items with
  | nil => exact absurd rfl hne
  | cons v items ih =>
    intro fuel rest hfuel
    obtain ⟨hv, hitems⟩ := List.forall_mem_cons.mp h
    obtain ⟨fuel, rfl⟩ := Nat.exists_eq_add_of_le' (show 1 ≤ fuel by omega)
    cases items with
    | nil =>
      rw [printItems] at hfuel ⊢
      exact items?_last blanks_nil (hv.value fuel _ (ends_closeBracket _) (by omega))
    | cons w items =>
      have hlength : (printItems (v :: w :: items)).length =
          (print v).length + 1 + (printItems (w :: items)).length := by
        simp only [printItems, List.length_append, List.length_cons]
        omega
      have hbytes : printItems (v :: w :: items) ++ closeBracket :: rest =
          print v ++ comma :: (printItems (w :: items) ++ closeBracket :: rest) := by
        rw [printItems, List.append_assoc, List.cons_append]
      have hread := hv.value fuel _
        (ends_comma (printItems (w :: items) ++ closeBracket :: rest)) (by omega)
      rw [hbytes, items?_more blanks_nil hread, ih (by simp) hitems fuel rest (by omega)]
      rfl

theorem head_printItems {items : List Json} (hne : items ≠ []) (h : ∀ v ∈ items, Reads v) :
    ∃ b rest, printItems items = b :: rest ∧ Starts b := by
  cases items with
  | nil => exact absurd rfl hne
  | cons v items =>
    obtain ⟨b, rest, hb, hstarts⟩ := (h v List.mem_cons_self).starts
    cases items with
    | nil => exact ⟨b, rest, hb, hstarts⟩
    | cons w items => exact ⟨b, _, by rw [printItems, hb, List.cons_append], hstarts⟩

def named (members : List (String × Json)) : List (Bytes × Json) :=
  members.map fun m => (escape m.1, m.2)

theorem head_printMembers {members : List (String × Json)} (hne : members ≠ []) :
    ∃ rest, printMembers (named members) = quote :: rest := by
  cases members with
  | nil => exact absurd rfl hne
  | cons m members =>
    cases members with
    | nil => exact ⟨_, rfl⟩
    | cons m' members => exact ⟨_, rfl⟩

theorem members?_print {members : List (String × Json)} (hne : members ≠ [])
    (h : ∀ m ∈ members, Reads m.2) :
    ∀ (fuel : Nat) (rest : Bytes), 2 * (printMembers (named members)).length + 1 ≤ fuel →
      members? fuel (printMembers (named members) ++ closeBrace :: rest) =
        some (named members, rest) := by
  induction members with
  | nil => exact absurd rfl hne
  | cons m members ih =>
    intro fuel rest hfuel
    obtain ⟨k, v⟩ := m
    obtain ⟨hv, hmembers⟩ : Reads v ∧ ∀ m ∈ members, Reads m.2 := List.forall_mem_cons.mp h
    obtain ⟨fuel, rfl⟩ := Nat.exists_eq_add_of_le' (show 1 ≤ fuel by omega)
    cases members with
    | nil =>
      have hlength : (print v).length ≤ (printMembers (named [(k, v)])).length := by
        simp only [named, List.map_cons, List.map_nil, printMembers, List.length_append,
          List.length_cons]
        omega
      have hbytes : printMembers (named [(k, v)]) ++ closeBrace :: rest =
          quote :: (escape k ++ quote :: colon :: (print v ++ closeBrace :: rest)) := by
        simp [named, printMembers]
      rw [hbytes, members?_escape k (hv.value fuel _ (ends_closeBrace _) (by omega))]
      exact afterMember_closeBrace blanks_nil _ rest
    | cons m members =>
      have hlength : (printMembers (named ((k, v) :: m :: members))).length =
          (escape k).length + 4 + (print v).length +
            (printMembers (named (m :: members))).length := by
        simp only [named, List.map_cons, printMembers, List.length_append, List.length_cons]
        omega
      have hbytes : printMembers (named ((k, v) :: m :: members)) ++ closeBrace :: rest =
          quote :: (escape k ++ quote :: colon :: (print v ++
            comma :: (printMembers (named (m :: members)) ++ closeBrace :: rest))) := by
        simp [named, printMembers]
      rw [hbytes, members?_escape k (hv.value fuel _ (ends_comma _) (by omega))]
      refine (afterMember_comma blanks_nil _ _).trans ?_
      rw [ih (by simp) hmembers fuel rest (by omega)]
      rfl

theorem value?_array {items : List Json} (h : ∀ v ∈ items, Reads v) (fuel : Nat) (rest : Bytes)
    (hfuel : 2 * (print (array items)).length ≤ fuel) :
    value? fuel (print (array items) ++ rest) = some (array items, rest) := by
  have hlength : (print (array items)).length = (printItems items).length + 2 := by
    simp [print]
  have hbytes : print (array items) ++ rest =
      openBracket :: (printItems items ++ closeBracket :: rest) := by
    simp [print]
  obtain ⟨fuel, rfl⟩ := Nat.exists_eq_add_of_le' (show 1 ≤ fuel by omega)
  rw [hbytes]
  by_cases hne : items = []
  · subst hne
    rfl
  · have hread := items?_print hne h fuel rest (by omega)
    obtain ⟨b, bytes, hb, hstarts⟩ := head_printItems hne h
    rw [hb, List.cons_append] at hread ⊢
    rw [value?_openBracket fuel hstarts, hread]
    rfl

theorem value?_record {members : List (String × Json)} (h : ∀ m ∈ members, Reads m.2) (fuel : Nat)
    (rest : Bytes) (hfuel : 2 * (print (record members)).length ≤ fuel) :
    value? fuel (print (record members) ++ rest) = some (record members, rest) := by
  have hlength : (print (record members)).length = (printMembers (named members)).length + 2 := by
    simp [record, print, named]
  have hbytes : print (record members) ++ rest =
      openBrace :: (printMembers (named members) ++ closeBrace :: rest) := by
    simp [record, print, named]
  obtain ⟨fuel, rfl⟩ := Nat.exists_eq_add_of_le' (show 1 ≤ fuel by omega)
  rw [hbytes]
  by_cases hne : members = []
  · subst hne
    rfl
  · have hread := members?_print hne h fuel rest (by omega)
    obtain ⟨bytes, hb⟩ := head_printMembers hne
    rw [hb, List.cons_append] at hread ⊢
    rw [value?_openBrace, hread]
    rfl

theorem reads_list {items : List Json} (h : ∀ v ∈ items, Reads v) : Reads (array items) :=
  ⟨⟨openBracket, _, rfl, by decide, by decide⟩, fun fuel rest _ => value?_array h fuel rest⟩

theorem reads_record {members : List (String × Json)} (h : ∀ m ∈ members, Reads m.2) :
    Reads (record members) :=
  ⟨⟨openBrace, _, rfl, by decide, by decide⟩, fun fuel rest _ => value?_record h fuel rest⟩

theorem Reads.parse? {v : Json} (h : Reads v) : parse? (print v) = some v := by
  have hread := h.value (enough (print v)) [] trivial (by rw [enough]; omega)
  rw [List.append_nil] at hread
  rw [Json.parse?, hread]
  rfl

end TraceIndex.Json
