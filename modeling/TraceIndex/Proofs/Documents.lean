import TraceIndex.Proofs.DocumentTokens

namespace TraceIndex.Toml

open Text

def Remark (cs : List Char) : Prop := cs = [] ∨ ∃ note, cs = '#' :: note ∧ ∀ c ∈ note, isVisible c

inductive Line : List Char → Option (String × Int) → Prop
  | blank {gap remark} : Spaces gap → Remark remark → Line (gap ++ remark) none
  | pair {indent spelled key before after number n gap remark} : Spaces indent →
      SpellsKey spelled key → Spaces before → Spaces after → Decimal number n → Spaces gap →
      Remark remark →
      Line (indent ++ spelled ++ before ++ '=' :: after ++ number ++ gap ++ remark) (some (key, n))

inductive Document : List Char → List (String × Int) → Prop
  | last {cs p} : Line cs p → Document cs p.toList
  | line {cs p stop rest pairs} : Line cs p → stop = ['\n'] ∨ stop = ['\r', '\n'] →
      Document rest pairs → Document (cs ++ stop ++ rest) (p.toList ++ pairs)

/-- What a line begins with if it opens a value or a table of the key: the key with an equals sign
or with more of a dotted key behind it, or behind one bracket or two. -/
def Opens (cs : List Char) (key : String) : Prop :=
  ∃ indent brackets gap spelled behind stop,
    cs = indent ++ brackets ++ gap ++ spelled ++ behind ++ [stop] ∧ Spaces indent ∧ Spaces gap ∧
      Spaces behind ∧ SpellsKey spelled key ∧
      (brackets = [] ∧ (stop = '=' ∨ stop = '.') ∨
        (brackets = ['['] ∨ brackets = ['[', '[']) ∧ (stop = ']' ∨ stop = '.'))

theorem isTrailing_remark {gap remark : List Char} (hgap : Spaces gap) (hremark : Remark remark) :
    isTrailing (gap ++ remark) := by
  have hskip : skipSpaces (gap ++ remark) = remark := by
    refine skipSpaces_append hgap ?_
    obtain rfl | ⟨note, rfl, -⟩ := hremark
    · rintro c ⟨⟩
    · rintro c ⟨⟩
      decide
  rw [isTrailing, hskip]
  obtain rfl | ⟨note, rfl, hnote⟩ := hremark
  · rfl
  · exact List.all_eq_true.mpr hnote

theorem Remark.visible {cs : List Char} (h : Remark cs) : ∀ c ∈ cs, isVisible c := by
  obtain rfl | ⟨note, rfl, hnote⟩ := h
  · rintro _ ⟨⟩
  · exact List.forall_mem_cons.mpr ⟨by decide, hnote⟩

theorem Line.visible {cs : List Char} {p : Option (String × Int)} (h : Line cs p) :
    ∀ c ∈ cs, isVisible c := by
  cases h with
  | blank hgap hremark => exact List.forall_mem_append.mpr ⟨hgap.visible, hremark.visible⟩
  | @pair _ _ _ _ _ number _ _ _ hindent hkey hbefore hafter hnumber hgap hremark =>
    have hdigits : ∀ c ∈ number, isVisible c := fun c hc =>
      (hnumber.marks c hc).elim isVisible_of_isBare (by rintro rfl; decide)
    simp only [List.forall_mem_append, List.forall_mem_cons]
    exact ⟨⟨⟨⟨⟨⟨hindent.visible, hkey.visible⟩, hbefore.visible⟩, by decide, hafter.visible⟩,
      hdigits⟩, hgap.visible⟩, hremark.visible⟩

theorem lines_visible {cs : List Char} (h : ∀ c ∈ cs, isVisible c) (line rest : List Char) :
    lines line (cs ++ rest) = lines (cs.reverse ++ line) rest := by
  induction cs generalizing line with
  | nil => rfl
  | cons c cs ih =>
    obtain ⟨hc, hcs⟩ := List.forall_mem_cons.mp h
    have hfeed : c ≠ '\n' := by
      rintro rfl
      cases hc
    have hreturn : c ≠ '\r' := by
      rintro rfl
      cases hc
    rw [List.cons_append, lines.eq_4 _ _ _ hfeed (fun _ h => absurd h hreturn), ih hcs,
      List.reverse_cons, List.append_assoc, List.singleton_append]

theorem lines_end (before line cs : List Char) :
    ∃ ls, lines line (before ++ '\n' :: cs) = ls ++ lines [] cs := by
  fun_induction lines line before with
  | case1 line => exact ⟨[line.reverse], rfl⟩
  | case2 line rest ih =>
    obtain ⟨ls, hls⟩ := ih
    exact ⟨line.reverse :: ls, congrArg _ hls⟩
  | case3 line rest ih =>
    obtain ⟨ls, hls⟩ := ih
    exact ⟨line.reverse :: ls, congrArg _ hls⟩
  | case4 line c rest hfeed hreturn ih =>
    by_cases hlast : c = '\r' ∧ rest = []
    · obtain ⟨rfl, rfl⟩ := hlast
      exact ⟨[line.reverse], rfl⟩
    · have hnext : ∀ rest', c = '\r' → rest ++ '\n' :: cs = '\n' :: rest' → False := by
        intro rest' hc heq
        cases rest with
        | nil => exact hlast ⟨hc, rfl⟩
        | cons d rest =>
          obtain ⟨rfl, -⟩ := List.cons.inj heq
          exact hreturn rest hc rfl
      rw [List.cons_append, lines.eq_4 _ _ _ hfeed hnext]
      exact ih

theorem line?_spelled {indent spelled tail : List Char} {key : String} (hindent : Spaces indent)
    (hkey : SpellsKey spelled key) (htail : ∀ c ∈ tail.head?, ¬ isBare c) :
    line? (indent ++ (spelled ++ tail)) =
      match skipSpaces tail with
      | '=' :: rest => do
        let value := skipSpaces rest
        let n ← integer? (value.takeWhile isValueChar)
        if isTrailing (value.dropWhile isValueChar) then some (some (key, n)) else none
      | _ => none := by
  obtain ⟨c, cs, hcs, hc, -⟩ := hkey.head
  have hskip : skipSpaces (indent ++ (spelled ++ tail)) = spelled ++ tail := by
    refine skipSpaces_append hindent ?_
    rw [hcs]
    rintro _ ⟨⟩
    exact not_isSpace_of_isValueChar hc
  have hfull : isTrailing (indent ++ (spelled ++ tail)) = false := by
    rw [isTrailing, hskip, hcs]
    simp only [List.cons_append]
    split
    · rename_i heq
      cases heq
    · rename_i heq
      obtain ⟨rfl, -⟩ := List.cons.inj heq
      cases hc
    · rfl
  rw [line?, hfull, hskip, key?_spelled hkey htail]
  rfl

/-- A line is read as the pair that it holds. -/
theorem Line.read {cs : List Char} {p : Option (String × Int)} (h : Line cs p)
    (hp : ∀ q ∈ p, isInteger q.2) : line? cs = some p := by
  cases h with
  | blank hgap hremark => rw [line?, if_pos (isTrailing_remark hgap hremark)]
  | @pair indent spelled key before after number n gap remark hindent hkey hbefore hafter hnumber
      hgap hremark =>
    have htail : ∀ rest, ∀ c ∈ (before ++ '=' :: rest).head?, ¬ isBare c := by
      intro rest c hc
      obtain hspace | hc := head?_spaces hbefore hc
      · exact not_isBare_of_isSpace hspace
      · cases hc
        decide
    have hequals : ∀ rest, skipSpaces (before ++ '=' :: rest) = '=' :: rest := by
      intro rest
      refine skipSpaces_append hbefore ?_
      rintro _ ⟨⟩
      decide
    have hvalue : ∀ c ∈ number, isValueChar c := fun c hc =>
      (hnumber.marks c hc).elim isValueChar_of_isBare (by rintro rfl; decide)
    have hskip : skipSpaces (after ++ (number ++ (gap ++ remark))) = number ++ (gap ++ remark) := by
      refine skipSpaces_append hafter ?_
      obtain ⟨c, rest, hcs, hc⟩ := hnumber.head
      rw [hcs]
      rintro _ ⟨⟩
      exact not_isSpace_of_isValueChar hc
    have hend : ∀ c ∈ (gap ++ remark).head?, ¬ isValueChar c := by
      intro c hc hvalue
      obtain hspace | hc := head?_spaces hgap hc
      · exact not_isSpace_of_isValueChar hvalue hspace
      · obtain rfl | ⟨note, rfl, -⟩ := hremark
        · cases hc
        · cases hc
          cases hvalue
    have hline : indent ++ spelled ++ before ++ '=' :: after ++ number ++ gap ++ remark =
        indent ++ (spelled ++ (before ++ '=' :: (after ++ (number ++ (gap ++ remark))))) := by
      simp only [List.append_assoc, List.cons_append]
    rw [hline, line?_spelled hindent hkey (htail _), hequals]
    simp only [hskip, takeWhile_run hvalue hend, dropWhile_run hvalue hend,
      isTrailing_remark hgap hremark, hnumber.read (hp _ rfl), ↓reduceIte]
    rfl

theorem line?_bracket {indent : List Char} (hindent : Spaces indent) (tail : List Char) :
    line? (indent ++ '[' :: tail) = none := by
  have hskip : skipSpaces (indent ++ '[' :: tail) = '[' :: tail := by
    refine skipSpaces_append hindent ?_
    rintro _ ⟨⟩
    decide
  rw [line?, isTrailing, hskip]
  rfl

theorem Opens.key {opening tail : List Char} {key : String} {p : Option (String × Int)}
    (h : Opens opening key) (hread : line? (opening ++ tail) = some p) :
    ∃ n, p = some (key, n) := by
  obtain ⟨indent, brackets, gap, spelled, behind, stop, rfl, hindent, hgap, hbehind, hkey,
    hstop⟩ := h
  obtain ⟨rfl, hstop⟩ | ⟨hbrackets, -⟩ := hstop
  · have hspaces : Spaces (indent ++ gap) := List.forall_mem_append.mpr ⟨hindent, hgap⟩
    have hline : indent ++ [] ++ gap ++ spelled ++ behind ++ [stop] ++ tail =
        indent ++ gap ++ (spelled ++ (behind ++ stop :: tail)) := by
      simp only [List.append_assoc, List.append_nil, List.singleton_append]
    have hbare : ¬ isBare stop ∧ ¬ isSpace stop := by
      obtain rfl | rfl := hstop
      · decide
      · decide
    have htail : ∀ c ∈ (behind ++ stop :: tail).head?, ¬ isBare c := by
      intro c hc
      obtain hspace | hc := head?_spaces hbehind hc
      · exact not_isBare_of_isSpace hspace
      · cases hc
        exact hbare.1
    have hskip : skipSpaces (behind ++ stop :: tail) = stop :: tail := by
      refine skipSpaces_append hbehind ?_
      rintro _ ⟨⟩
      exact hbare.2
    rw [hline, line?_spelled hspaces hkey htail, hskip] at hread
    obtain rfl | rfl := hstop
    · obtain ⟨n, -, hn⟩ := Option.bind_eq_some_iff.mp hread
      split at hn
      · exact ⟨n, (Option.some.inj hn).symm⟩
      · cases hn
    · cases hread
  · obtain ⟨tail', htail'⟩ : ∃ tail',
        indent ++ brackets ++ gap ++ spelled ++ behind ++ [stop] ++ tail =
          indent ++ '[' :: tail' := by
      obtain rfl | rfl := hbrackets
      · exact ⟨gap ++ spelled ++ behind ++ [stop] ++ tail, by simp⟩
      · exact ⟨'[' :: (gap ++ spelled ++ behind ++ [stop] ++ tail), by simp⟩
    rw [htail', line?_bracket hindent] at hread
    cases hread

theorem Line.head {cs : List Char} {p : Option (String × Int)} (h : Line cs p) :
    ∀ c ∈ cs.head?, c.toNat < 0x80 := by
  intro c hc
  cases h with
  | blank hgap hremark =>
    obtain hc | hc := head?_spaces hgap hc
    · exact toNat_of_isSpace hc
    · obtain rfl | ⟨note, rfl, -⟩ := hremark
      · cases hc
      · cases hc
        decide
  | pair hindent hkey _ _ _ _ _ =>
    simp only [List.append_assoc] at hc
    obtain hc | hc := head?_spaces hindent hc
    · exact toNat_of_isSpace hc
    · obtain ⟨d, rest, rfl, -, hd⟩ := hkey.head
      cases hc
      exact hd

theorem skipMark_of_head {cs : List Char} (h : ∀ c ∈ cs.head?, c.toNat < 0x80) :
    skipMark cs = cs := by
  unfold skipMark
  split
  · exact absurd (h _ rfl) (by decide)
  · rfl

theorem Document.skipMark {cs : List Char} {pairs : List (String × Int)} (h : Document cs pairs) :
    skipMark cs = cs := by
  apply skipMark_of_head
  cases h with
  | last h => exact h.head
  | @line cs p stop rest pairs h hstop _ =>
    intro c hc
    cases cs with
    | nil =>
      obtain rfl | rfl := hstop
      · cases hc
        decide
      · cases hc
        decide
    | cons d cs => exact h.head c hc

theorem Document.lines {cs : List Char} {pairs : List (String × Int)} (h : Document cs pairs)
    (hpairs : ∀ p ∈ pairs, isInteger p.2) :
    ∃ found, (lines [] cs).mapM line? = some found ∧ found.filterMap id = pairs := by
  induction h with
  | @last cs p h =>
    have hcut := lines_visible h.visible [] []
    rw [List.append_nil, List.append_nil, Toml.lines, List.reverse_reverse] at hcut
    refine ⟨[p], ?_, ?_⟩
    · rw [hcut, List.mapM_cons, h.read fun q hq => hpairs q (Option.mem_toList.mpr hq)]
      rfl
    · cases p <;> rfl
  | @line cs p stop rest pairs h hstop _ ih =>
    obtain ⟨hp, hrest⟩ := List.forall_mem_append.mp hpairs
    obtain ⟨found, hfound, hheld⟩ := ih hrest
    have hcut : Toml.lines [] (cs ++ stop ++ rest) = cs :: Toml.lines [] rest := by
      rw [List.append_assoc, lines_visible h.visible, List.append_nil]
      obtain rfl | rfl := hstop
      · exact congrArg (· :: _) (List.reverse_reverse cs)
      · exact congrArg (· :: _) (List.reverse_reverse cs)
    refine ⟨p :: found, ?_, ?_⟩
    · rw [hcut, List.mapM_cons, h.read fun q hq => hp q (Option.mem_toList.mpr hq), hfound]
      rfl
    · rw [List.filterMap_cons]
      cases p with
      | none => exact hheld
      | some q => exact congrArg (q :: ·) hheld

/-- A document is read as the pairs that its lines hold. -/
theorem Document.read {cs : List Char} {pairs : List (String × Int)} (h : Document cs pairs)
    (hpairs : ∀ p ∈ pairs, isInteger p.2) : pairs? cs = some pairs := by
  obtain ⟨found, hfound, hpairs⟩ := h.lines hpairs
  rw [pairs?, h.skipMark, hfound, ← hpairs]
  rfl

/-- Where the text of a line may begin: with the text, behind a mark of the byte order or behind the
end of another line. -/
def Precedes (before : List Char) : Prop :=
  before = [] ∨ before = ['\uFEFF'] ∨ ∃ earlier, before = earlier ++ ['\n']

theorem lines_before {before cs : List Char} (hbefore : Precedes before)
    (hcs : ∀ c ∈ cs.head?, c.toNat < 0x80) :
    ∃ ls, Toml.lines [] (skipMark (before ++ cs)) = ls ++ Toml.lines [] cs := by
  obtain rfl | rfl | ⟨earlier, rfl⟩ := hbefore
  · exact ⟨[], by rw [List.nil_append, List.nil_append, skipMark_of_head hcs]⟩
  · exact ⟨[], rfl⟩
  · rw [List.append_assoc, List.singleton_append]
    unfold skipMark
    split
    · rename_i rest heq
      cases earlier with
      | nil => exact absurd (List.cons.inj heq).1 (by decide)
      | cons c earlier =>
        obtain ⟨-, rfl⟩ := List.cons.inj heq
        exact lines_end earlier [] cs
    · exact lines_end earlier [] cs

theorem lines_begin (line cs : List Char) :
    ∃ more rest, Toml.lines line cs = (line.reverse ++ more) :: rest := by
  fun_induction Toml.lines line cs with
  | case1 line => exact ⟨[], [], by rw [List.append_nil]⟩
  | case2 line rest ih => exact ⟨[], _, by rw [List.append_nil]⟩
  | case3 line rest ih => exact ⟨[], _, by rw [List.append_nil]⟩
  | case4 line c rest _ _ ih =>
    obtain ⟨more, rest', h⟩ := ih
    exact ⟨c :: more, rest', by rw [h, List.reverse_cons, List.append_assoc, List.singleton_append]⟩

theorem Opens.visible {opening : List Char} {key : String} (h : Opens opening key) :
    ∀ c ∈ opening, isVisible c := by
  obtain ⟨indent, brackets, gap, spelled, behind, stop, rfl, hindent, hgap, hbehind, hkey,
    hstop⟩ := h
  have hmarks : brackets.all isVisible ∧ isVisible stop := by
    obtain ⟨rfl, rfl | rfl⟩ | ⟨rfl | rfl, rfl | rfl⟩ := hstop <;> decide
  simp only [List.forall_mem_append, List.forall_mem_singleton]
  exact ⟨⟨⟨⟨⟨hindent.visible, List.all_eq_true.mp hmarks.1⟩, hgap.visible⟩, hkey.visible⟩,
    hbehind.visible⟩, hmarks.2⟩

theorem Opens.head {opening : List Char} {key : String} (h : Opens opening key)
    (tail : List Char) : ∀ c ∈ (opening ++ tail).head?, c.toNat < 0x80 := by
  obtain ⟨indent, brackets, gap, spelled, behind, stop, rfl, hindent, hgap, hbehind, hkey,
    hstop⟩ := h
  intro c hc
  simp only [List.append_assoc] at hc
  obtain hc | hc := head?_spaces hindent hc
  · exact toNat_of_isSpace hc
  · obtain ⟨rfl, -⟩ | ⟨rfl | rfl, -⟩ := hstop
    · obtain hc | hc := head?_spaces hgap hc
      · exact toNat_of_isSpace hc
      · obtain ⟨d, rest, rfl, -, hd⟩ := hkey.head
        cases hc
        exact hd
    · cases hc
      decide
    · cases hc
      decide

theorem Opens.mem_pairs {before opening tail : List Char} {key : String}
    {pairs : List (String × Int)} (h : Opens opening key) (hbefore : Precedes before)
    (hread : pairs? (before ++ opening ++ tail) = some pairs) : ∃ n, (key, n) ∈ pairs := by
  obtain ⟨found, hfound, hpairs⟩ := Option.bind_eq_some_iff.mp hread
  obtain rfl := Option.some.inj hpairs
  obtain ⟨ls, hcut⟩ := lines_before hbefore (h.head tail)
  rw [← List.append_assoc] at hcut
  obtain ⟨more, rest, hline⟩ := lines_begin opening.reverse tail
  have hmem : opening ++ more ∈ Toml.lines [] (skipMark (before ++ opening ++ tail)) := by
    rw [hcut, lines_visible h.visible, List.append_nil, hline, List.reverse_reverse]
    simp
  obtain ⟨p, hp, hread⟩ := mem_of_mapM hfound hmem
  obtain ⟨n, rfl⟩ := h.key hread
  exact ⟨n, List.mem_filterMap.mpr ⟨_, hp, rfl⟩⟩

theorem document_pairs {pairs : List (String × Int)}
    (h : ∀ p ∈ pairs, p.1.toList ≠ [] ∧ ∀ c ∈ p.1.toList, isBare c) :
    Document (String.join (pairs.map pairLine)).toList pairs := by
  have hnil : Spaces [] := by decide
  have hblank : Spaces [' '] := by decide
  induction pairs with
  | nil => exact .last (.blank hnil (.inl rfl))
  | cons p pairs ih =>
    obtain ⟨⟨hne, hbare⟩, hpairs⟩ := List.forall_mem_cons.mp h
    have hkey := SpellsKey.bare hne hbare
    rw [String.ofList_toList] at hkey
    have hline := Line.pair hnil hkey hblank hblank (decimal_text p.2) hnil (.inl rfl)
    have htext : (String.join ((p :: pairs).map pairLine)).toList =
        [] ++ p.1.toList ++ [' '] ++ '=' :: [' '] ++ (Text.decimal p.2).toList ++ [] ++ [] ++
          ['\n'] ++ (String.join (pairs.map pairLine)).toList := by
      simp [pairLine, String.join_cons]
    rw [htext]
    exact .line hline (.inl rfl) (ih hpairs)

end TraceIndex.Toml
