import TraceIndex.Proofs.Alike

namespace TraceIndex.Json

mutual

/-- How a value may be written. -/
inductive Written : Json → Bytes → Prop
  | null : Written null (ascii "null")
  | true : Written (bool true) (ascii "true")
  | false : Written (bool false) (ascii "false")
  | number {literal} : Numeral literal → Written (number literal) literal
  | string {inside bytes} : Quoted inside bytes → Written (string inside) bytes
  | empty {gap} : Blanks gap → Written (array []) (openBracket :: (gap ++ [closeBracket]))
  | array {vs bytes} : Items vs bytes →
      Written (array vs) (openBracket :: (bytes ++ [closeBracket]))
  | bare {gap} : Blanks gap → Written (object []) (openBrace :: (gap ++ [closeBrace]))
  | object {ms bytes} : Members ms bytes →
      Written (object ms) (openBrace :: (bytes ++ [closeBrace]))

inductive Padded : Json → Bytes → Prop
  | mk {before v bytes after} : Blanks before → Written v bytes → Blanks after →
      Padded v (before ++ (bytes ++ after))

inductive Items : List Json → Bytes → Prop
  | last {v bytes} : Padded v bytes → Items [v] bytes
  | more {v bytes vs rest} : Padded v bytes → Items vs rest →
      Items (v :: vs) (bytes ++ comma :: rest)

inductive Members : List (Bytes × Json) → Bytes → Prop
  | last {m bytes} : Member m bytes → Members [m] bytes
  | more {m bytes ms rest} : Member m bytes → Members ms rest →
      Members (m :: ms) (bytes ++ comma :: rest)

inductive Member : Bytes × Json → Bytes → Prop
  | mk {before k key middle v bytes} : Blanks before → Quoted k key → Blanks middle →
      Padded v bytes → Member (k, v) (before ++ (key ++ (middle ++ colon :: bytes)))

end

theorem ends_blanks {gap rest : Bytes} (hgap : Blanks gap) (hrest : Ends rest) :
    Ends (gap ++ rest) := by
  cases gap with
  | nil => exact hrest
  | cons b gap =>
    have hb : isBlank b := hgap b List.mem_cons_self
    simp only [isBlank, Bool.or_eq_true, decide_eq_true_eq] at hb
    obtain ((rfl | rfl) | rfl) | rfl := hb <;> exact ⟨by decide, by decide, by decide, by decide⟩

theorem Written.head {v : Json} {bytes : Bytes} (h : Written v bytes) :
    ∃ b rest, bytes = b :: rest ∧ Starts b := by
  cases h with
  | null => exact ⟨_, _, rfl, by decide, by decide⟩
  | true => exact ⟨_, _, rfl, by decide, by decide⟩
  | false => exact ⟨_, _, rfl, by decide, by decide⟩
  | number h =>
    obtain ⟨b, rest, rfl, hb⟩ := h.head
    exact ⟨b, rest, rfl, starts_of_number hb⟩
  | string h => cases h <;> exact ⟨quote, _, rfl, by decide, by decide⟩
  | empty _ | array _ => exact ⟨openBracket, _, rfl, by decide, by decide⟩
  | bare _ | object _ => exact ⟨openBrace, _, rfl, by decide, by decide⟩

theorem value?_blanks {gap : Bytes} (hgap : Blanks gap) (fuel : Nat) (bytes : Bytes) :
    value? fuel (gap ++ bytes) = value? fuel bytes := by
  cases fuel with
  | zero => rfl
  | succ fuel => rw [value?, value?, skipBlanks_append hgap]

theorem value?_empty {gap : Bytes} (hgap : Blanks gap) (fuel : Nat) (rest : Bytes) :
    value? (fuel + 1) (openBracket :: (gap ++ closeBracket :: rest)) = some (array [], rest) := by
  rw [value?_bracket, skipBlanks_mark hgap (by decide)]
  rfl

theorem value?_bare {gap : Bytes} (hgap : Blanks gap) (fuel : Nat) (rest : Bytes) :
    value? (fuel + 1) (openBrace :: (gap ++ closeBrace :: rest)) = some (object [], rest) := by
  rw [value?_brace, skipBlanks_mark hgap (by decide)]
  rfl

theorem Padded.head {v : Json} {bytes : Bytes} (h : Padded v bytes) (rest : Bytes) :
    ∃ b rest', skipBlanks (bytes ++ rest) = b :: rest' ∧ Starts b := by
  obtain @⟨before, v, bytes, after, hbefore, hbytes, -⟩ := h
  obtain ⟨b, tail, rfl, hb⟩ := hbytes.head
  refine ⟨b, tail ++ after ++ rest, ?_, hb⟩
  rw [List.append_assoc]
  exact skipBlanks_mark hbefore hb.1 _

theorem Items.head {vs : List Json} {bytes : Bytes} (h : Items vs bytes) (rest : Bytes) :
    ∃ b rest', skipBlanks (bytes ++ rest) = b :: rest' ∧ Starts b := by
  cases h with
  | last h => exact h.head rest
  | more h _ =>
    rw [List.append_assoc]
    exact h.head _

theorem Member.head {m : Bytes × Json} {bytes : Bytes} (h : Member m bytes) (rest : Bytes) :
    ∃ rest', skipBlanks (bytes ++ rest) = quote :: rest' := by
  obtain @⟨before, k, key, middle, v, bytes, hbefore, hkey, -, -⟩ := h
  obtain ⟨other, -, rfl, -⟩ := hkey.read []
  refine ⟨other ++ [quote] ++ (middle ++ colon :: bytes) ++ rest, ?_⟩
  rw [List.append_assoc]
  exact skipBlanks_mark hbefore (by decide) _

theorem Members.head {ms : List (Bytes × Json)} {bytes : Bytes} (h : Members ms bytes)
    (rest : Bytes) : ∃ rest', skipBlanks (bytes ++ rest) = quote :: rest' := by
  cases h with
  | last h => exact h.head rest
  | more h _ =>
    rw [List.append_assoc]
    exact h.head _

/-- So many steps are enough to read every value of so few bytes. -/
def ReadsValues (fuel : Nat) : Prop :=
  ∀ v bytes rest, Written v bytes → Ends rest → 2 * bytes.length ≤ fuel →
    ∃ w, Alike v w ∧ value? fuel (bytes ++ rest) = some (w, rest)

def ReadsItems (fuel : Nat) : Prop :=
  ∀ vs bytes rest, Items vs bytes → 2 * bytes.length + 1 ≤ fuel →
    ∃ ws, List.Forall₂ Alike vs ws ∧
      items? fuel (bytes ++ closeBracket :: rest) = some (ws, rest)

def ReadsMembers (fuel : Nat) : Prop :=
  ∀ ms bytes rest, Members ms bytes → 2 * bytes.length + 1 ≤ fuel →
    ∃ ns, List.Forall₂ (SameMember Alike) ms ns ∧
      members? fuel (bytes ++ closeBrace :: rest) = some (ns, rest)

section Induction

variable {fuel : Nat}

theorem ReadsValues.padded (h : ReadsValues fuel) {v : Json} {bytes rest : Bytes}
    (hv : Padded v bytes) (hrest : Ends rest) (hfuel : 2 * bytes.length ≤ fuel) :
    ∃ w gap, Alike v w ∧ Blanks gap ∧ value? fuel (bytes ++ rest) = some (w, gap ++ rest) := by
  obtain ⟨hbefore, hbytes, hafter⟩ := hv
  rename_i before bytes after
  have hlength : bytes.length ≤ (before ++ (bytes ++ after)).length := by
    simp only [List.length_append]
    omega
  obtain ⟨w, hw, hread⟩ := h v bytes (after ++ rest) hbytes (ends_blanks hafter hrest) (by omega)
  refine ⟨w, after, hw, hafter, ?_⟩
  rw [List.append_assoc, value?_blanks hbefore, List.append_assoc, hread]

theorem ReadsValues.member (h : ReadsValues fuel) {m : Bytes × Json} {bytes rest : Bytes}
    (hm : Member m bytes) (hrest : Ends rest) (hfuel : 2 * bytes.length ≤ fuel) :
    ∃ n gap, SameMember Alike m n ∧ Blanks gap ∧
      members? (fuel + 1) (bytes ++ rest) = afterMember fuel n (gap ++ rest) := by
  obtain @⟨before, k, key, middle, v, bytes, hbefore, hkey, hmiddle, hv⟩ := hm
  have hlength : bytes.length ≤ (before ++ (key ++ (middle ++ colon :: bytes))).length := by
    simp only [List.length_append, List.length_cons]
    omega
  obtain ⟨w, gap, hw, hgap, hread⟩ := h.padded hv hrest (by omega)
  obtain ⟨other, hother, rfl, hinside⟩ := hkey.read (middle ++ colon :: (bytes ++ rest))
  refine ⟨(other, w), gap, .mk hother hw, hgap, ?_⟩
  have hbytes : before ++ (quote :: (other ++ [quote]) ++ (middle ++ colon :: bytes)) ++ rest =
      before ++ quote :: (other ++ quote :: (middle ++ colon :: (bytes ++ rest))) := by
    simp only [List.append_assoc, List.cons_append, List.nil_append]
  rw [hbytes, members?_member hbefore hmiddle hinside hread]

theorem ReadsItems.step (hvalues : ReadsValues fuel) (hitems : ReadsItems fuel) :
    ReadsItems (fuel + 1) := by
  intro vs bytes rest h hfuel
  cases h with
  | last hv =>
    obtain ⟨w, gap, hw, hgap, hread⟩ := hvalues.padded hv (ends_closeBracket rest) (by omega)
    exact ⟨[w], .cons hw .nil, items?_last hgap hread⟩
  | @more v bytes vs more hv hvs =>
    have hlength : (bytes ++ comma :: more).length = bytes.length + more.length + 1 := by
      simp [Nat.add_assoc]
    obtain ⟨w, gap, hw, hgap, hread⟩ :=
      hvalues.padded hv (ends_comma (more ++ closeBracket :: rest)) (by omega)
    obtain ⟨ws, hws, hrest⟩ := hitems vs more rest hvs (by omega)
    refine ⟨w :: ws, .cons hw hws, ?_⟩
    rw [List.append_assoc, List.cons_append, items?_more hgap hread, hrest]
    rfl

theorem ReadsMembers.step (hvalues : ReadsValues fuel) (hmembers : ReadsMembers fuel) :
    ReadsMembers (fuel + 1) := by
  intro ms bytes rest h hfuel
  cases h with
  | last hm =>
    obtain ⟨n, gap, hn, hgap, hread⟩ := hvalues.member hm (ends_closeBrace rest) (by omega)
    refine ⟨[n], .cons hn .nil, ?_⟩
    rw [hread, afterMember_closeBrace hgap]
  | @more m bytes ms more hm hms =>
    have hlength : (bytes ++ comma :: more).length = bytes.length + more.length + 1 := by
      simp [Nat.add_assoc]
    obtain ⟨n, gap, hn, hgap, hread⟩ :=
      hvalues.member hm (ends_comma (more ++ closeBrace :: rest)) (by omega)
    obtain ⟨ns, hns, hrest⟩ := hmembers ms more rest hms (by omega)
    refine ⟨n :: ns, .cons hn hns, ?_⟩
    rw [List.append_assoc, List.cons_append, hread, afterMember_comma hgap, hrest]
    rfl

theorem ReadsValues.step (hitems : ReadsItems fuel) (hmembers : ReadsMembers fuel) :
    ReadsValues (fuel + 1) := by
  intro v bytes rest h hrest hfuel
  cases h with
  | null => exact ⟨null, .null, rfl⟩
  | true => exact ⟨bool true, .bool, rfl⟩
  | false => exact ⟨bool false, .bool, rfl⟩
  | number h =>
    obtain ⟨b, ds, hds, hb⟩ := h.head
    refine ⟨_, .number, ?_⟩
    have hread := h.read hrest
    rw [hds, List.cons_append] at hread ⊢
    rw [value?_number fuel hb, hread]
    rfl
  | string h =>
    obtain ⟨other, hother, rfl, hread⟩ := h.read rest
    refine ⟨string other, .string hother, ?_⟩
    rw [List.cons_append, List.append_assoc, List.singleton_append, value?_quote, hread]
    rfl
  | empty hgap =>
    refine ⟨array [], .array .nil, ?_⟩
    rw [List.cons_append, List.append_assoc, List.singleton_append, value?_empty hgap]
  | bare hgap =>
    refine ⟨object [], .object .nil, ?_⟩
    rw [List.cons_append, List.append_assoc, List.singleton_append, value?_bare hgap]
  | @array vs bytes h =>
    have hlength : (openBracket :: (bytes ++ [closeBracket])).length = bytes.length + 2 := by simp
    obtain ⟨ws, hws, hread⟩ := hitems vs bytes rest h (by omega)
    obtain ⟨b, tail, hhead, -, hb⟩ := h.head (closeBracket :: rest)
    refine ⟨array ws, .array hws, ?_⟩
    rw [List.cons_append, List.append_assoc, List.singleton_append, value?_bracket, hhead, hread]
    split
    · rename_i heq
      exact absurd (List.cons.inj heq).1 hb
    · rfl
  | @object ms bytes h =>
    have hlength : (openBrace :: (bytes ++ [closeBrace])).length = bytes.length + 2 := by simp
    obtain ⟨ns, hns, hread⟩ := hmembers ms bytes rest h (by omega)
    obtain ⟨tail, hhead⟩ := h.head (closeBrace :: rest)
    refine ⟨object ns, .object hns, ?_⟩
    rw [List.cons_append, List.append_assoc, List.singleton_append, value?_brace, hhead, hread]
    rfl

/-- Two steps for each byte are enough to read what is written. -/
theorem reads (fuel : Nat) : ReadsValues fuel ∧ ReadsItems fuel ∧ ReadsMembers fuel := by
  induction fuel with
  | zero =>
    refine ⟨fun v bytes rest h _ hfuel => ?_, fun _ _ _ _ hfuel => ?_, fun _ _ _ _ hfuel => ?_⟩
    · obtain ⟨b, tail, rfl, -⟩ := h.head
      simp at hfuel
    · omega
    · omega
  | succ fuel ih =>
    obtain ⟨hvalues, hitems, hmembers⟩ := ih
    exact ⟨.step hitems hmembers, .step hvalues hitems, .step hvalues hmembers⟩

end Induction

/-- A text is read as the value that it writes, up to the spelling of its strings. -/
theorem Padded.parse? {v : Json} {bytes : Bytes} (h : Padded v bytes) :
    ∃ w, Alike v w ∧ parse? bytes = some w := by
  have hfuel : 2 * bytes.length ≤ enough bytes := Nat.le_add_right _ _
  have hends : Ends [] := trivial
  obtain ⟨w, gap, hw, hgap, hread⟩ := (reads (enough bytes)).1.padded h hends hfuel
  have hgap' : skipBlanks (gap ++ []) = [] := skipBlanks_append hgap []
  rw [List.append_nil] at hread
  refine ⟨w, hw, ?_⟩
  rw [Json.parse?, hread]
  simp only [hgap', List.isEmpty_nil, ↓reduceIte]

theorem Written.padded {v : Json} {bytes : Bytes} (h : Written v bytes) : Padded v bytes := by
  have hpadded := Padded.mk blanks_nil h blanks_nil
  rwa [List.nil_append, List.append_nil] at hpadded

theorem written_array {items : List Json} (h : ∀ v ∈ items, Written v (print v)) :
    Written (array items) (print (array items)) := by
  cases items with
  | nil => exact .empty blanks_nil
  | cons v items =>
    rw [print]
    refine .array ?_
    induction items generalizing v with
    | nil => exact .last (h v List.mem_cons_self).padded
    | cons w items ih =>
      obtain ⟨hv, hitems⟩ := List.forall_mem_cons.mp h
      exact .more hv.padded (ih w hitems)

theorem written_record {members : List (String × Json)}
    (h : ∀ m ∈ members, Written m.2 (print m.2)) :
    Written (record members) (print (record members)) := by
  have hmember {k : String} {v : Json} (hv : Written v (print v)) :
      Member (escape k, v) (quote :: escape k ++ quote :: colon :: print v) := by
    have hkey : Quoted (escape k) _ := .kept (spells_escape k).inside
    have hmember := Member.mk blanks_nil hkey blanks_nil hv.padded
    simpa [escape] using hmember
  cases members with
  | nil => exact .bare blanks_nil
  | cons m members =>
    obtain ⟨k, v⟩ := m
    rw [record, print]
    refine .object ?_
    induction members generalizing k v with
    | nil => exact .last (hmember (h _ List.mem_cons_self))
    | cons m members ih =>
      obtain ⟨hv, hmembers⟩ := List.forall_mem_cons.mp h
      exact .more (hmember hv) (ih m.1 m.2 hmembers)

theorem carries_written : form.Carries (fun _ => True) fun _ v => Written v (print v) where
  small _ _ := trivial
  null _ := .null
  integer _ n := .number (numeral_decimal n)
  text _ s _ := .string (.kept (spells_escape s).inside)
  list _ _ _ := written_array
  record _ _ _ _ := written_record

end TraceIndex.Json
