import Mathlib.Data.List.Forall2
import TraceIndex.Proofs.Instants
import TraceIndex.Store.Cell

namespace TraceIndex

/-- A literal, by the characters that it is written with. -/
inductive Literal
  | quoted (inside : List Char)
  | blob (digits : List Char)
  | number (digits : List Char)
  deriving DecidableEq, Repr

namespace Literal

def inside? : List Char → Option (List Char × List Char)
  | [] => none
  | '\'' :: '\'' :: cs => (inside? cs).map fun (inside, rest) => ('\'' :: '\'' :: inside, rest)
  | '\'' :: cs => some ([], cs)
  | c :: cs => (inside? cs).map fun (inside, rest) => (c :: inside, rest)

def isHexDigit (c : Char) : Bool := (Bytes.hexValue? c).isSome

def number? (sign cs : List Char) : Option (Literal × List Char) :=
  match cs.takeWhile Text.isDigit with
  | [] => none
  | digits => some (number (sign ++ digits), cs.dropWhile Text.isDigit)

/-- The literal that a text begins with, and what is behind it. -/
def scan? : List Char → Option (Literal × List Char)
  | '\'' :: cs => (inside? cs).map fun (inside, rest) => (quoted inside, rest)
  | '0' :: 'x' :: cs => some (blob (cs.takeWhile isHexDigit), cs.dropWhile isHexDigit)
  | '-' :: cs => number? ['-'] cs
  | cs => number? [] cs

theorem length_inside? {cs : List Char} {p : List Char × List Char} (h : inside? cs = some p) :
    p.2.length < cs.length := by
  fun_induction inside? cs generalizing p with
  | case1 => cases h
  | case2 cs ih =>
    obtain ⟨q, hq, rfl⟩ := Option.map_eq_some_iff.mp h
    have := ih hq
    simp only [List.length_cons]
    omega
  | case3 cs =>
    cases h
    exact Nat.lt_succ_self _
  | case4 c cs _ _ ih =>
    obtain ⟨q, hq, rfl⟩ := Option.map_eq_some_iff.mp h
    have := ih hq
    simp only [List.length_cons]
    omega

theorem length_number? {sign cs : List Char} {p : Literal × List Char}
    (h : number? sign cs = some p) : p.2.length ≤ cs.length := by
  rw [number?] at h
  split at h
  · cases h
  · cases h
    exact (List.dropWhile_sublist _).length_le

theorem length_scan? {cs : List Char} {p : Literal × List Char} (h : scan? cs = some p) :
    p.2.length ≤ cs.length := by
  unfold scan? at h
  split at h
  · obtain ⟨q, hq, rfl⟩ := Option.map_eq_some_iff.mp h
    have := length_inside? hq
    simp only [List.length_cons]
    omega
  · cases h
    exact (List.dropWhile_sublist _).length_le.trans (Nat.le_add_right _ 2)
  · exact (length_number? h).trans (Nat.le_succ _)
  · exact length_number? h

def list? (cs : List Char) : Option (List Literal × List Char) :=
  match _h : scan? cs with
  | some (l, ',' :: rest) => (list? rest).map fun (ls, rest) => (l :: ls, rest)
  | some (l, ')' :: rest) => some ([l], rest)
  | _ => none
termination_by cs.length
decreasing_by exact length_scan? ‹_›

def unescape? : List Char → Option (List Char)
  | [] => some []
  | '\'' :: '\'' :: cs => (unescape? cs).map ('\'' :: ·)
  | '\'' :: _ => none
  | c :: cs => (unescape? cs).map (c :: ·)

def text? : Literal → Option String
  | quoted inside => (unescape? inside).map String.ofList
  | _ => none

def bytes? : Literal → Option Bytes
  | blob digits => Bytes.ofHexDigits? digits
  | _ => none

def int? : Literal → Option Int
  | number digits => Text.int? digits
  | _ => none

/-- The value of a cell is what the literal says. -/
def Denotes (l : Literal) : Cell → Prop
  | .bigint n => l.int? = some n.toInt
  | .int n => l.int? = some n.toInt
  | .text s => l.text? = some s
  | .blob bytes => l.bytes? = some bytes
  | .timestamp t => l.text? = some t.text

section Quoted

variable {c stop : Char}

theorem quotedChar_apostrophe : Cell.quotedChar '\'' = ['\'', '\''] := rfl

theorem quotedChar_self (h : c ≠ '\'') : Cell.quotedChar c = [c] := if_neg h

theorem inside?_quoted (hstop : stop ≠ '\'') (cs rest : List Char) :
    inside? (cs.flatMap Cell.quotedChar ++ '\'' :: stop :: rest) =
      some (cs.flatMap Cell.quotedChar, stop :: rest) := by
  induction cs with
  | nil => exact inside?.eq_3 _ fun _ h => hstop (List.cons.inj h).1
  | cons c cs ih =>
    rw [List.flatMap_cons, List.append_assoc]
    by_cases hc : c = '\''
    · rw [hc, quotedChar_apostrophe, List.cons_append, List.cons_append, List.nil_append, inside?,
        ih]
      rfl
    · rw [quotedChar_self hc, List.singleton_append, inside?.eq_4 _ _ (fun _ h _ => hc h) hc, ih]
      rfl

theorem unescape?_quoted (cs : List Char) : unescape? (cs.flatMap Cell.quotedChar) = some cs := by
  induction cs with
  | nil => rfl
  | cons c cs ih =>
    rw [List.flatMap_cons]
    by_cases hc : c = '\''
    · rw [hc, quotedChar_apostrophe, List.cons_append, List.cons_append, List.nil_append, unescape?,
        ih]
      rfl
    · rw [quotedChar_self hc, List.singleton_append, unescape?.eq_4 _ _ (fun _ h _ => hc h) hc, ih]
      rfl

end Quoted

theorem hexValue?_digitChar {n : Nat} (h : n < 16) : Bytes.hexValue? (Nat.digitChar n) = some n := by
  have hall : ∀ n < 16, Bytes.hexValue? (Nat.digitChar n) = some n := by decide
  exact hall n h

theorem isHexDigit_digitChar {n : Nat} (h : n < 16) : isHexDigit (Nat.digitChar n) := by
  rw [isHexDigit, hexValue?_digitChar h]
  rfl

theorem isHexDigit_of_mem {bytes : Bytes} {c : Char} (h : c ∈ bytes.flatMap Bytes.hexDigits) :
    isHexDigit c := by
  obtain ⟨b, -, hc⟩ := List.mem_flatMap.mp h
  have hb := b.toNat_lt
  rw [Bytes.hexDigits, List.mem_pair] at hc
  obtain rfl | rfl := hc
  · exact isHexDigit_digitChar (by omega)
  · exact isHexDigit_digitChar (by omega)

theorem ofHexDigits?_hex (bytes : Bytes) :
    Bytes.ofHexDigits? (bytes.flatMap Bytes.hexDigits) = some bytes := by
  induction bytes with
  | nil => rfl
  | cons b bytes ih =>
    have hb := b.toNat_lt
    have hbyte : UInt8.ofNat (16 * (b.toNat / 16) + b.toNat % 16) = b := by
      rw [Nat.div_add_mod]
      exact UInt8.ofNat_toNat
    rw [List.flatMap_cons, Bytes.hexDigits, List.cons_append, List.singleton_append,
      Bytes.ofHexDigits?, hexValue?_digitChar (by omega), hexValue?_digitChar (by omega), ih]
    simp only [Option.bind_eq_bind, Option.bind_some, Option.pure_def, hbyte]

def Closes (c : Char) : Prop := c = ',' ∨ c = ')'

variable {stop : Char}

theorem Closes.ends (h : Closes stop) :
    stop ≠ '\'' ∧ stop ≠ 'x' ∧ isHexDigit stop = false ∧ Text.isDigit stop = false := by
  obtain rfl | rfl := h <;> decide

theorem toList_literal_text (s : String) :
    (Cell.text s).literal.toList = '\'' :: (s.toList.flatMap Cell.quotedChar ++ ['\'']) :=
  String.toList_ofList

theorem toList_literal_blob (bytes : Bytes) :
    (Cell.blob bytes).literal.toList = '0' :: 'x' :: bytes.flatMap Bytes.hexDigits := by
  rw [Cell.literal, String.toList_append, Bytes.hex, String.toList_ofList (l := bytes.flatMap _)]
  rfl

theorem toList_literal_timestamp (t : SortableTime) :
    (Cell.timestamp t).literal.toList = '\'' :: (t.text.toList ++ ['\'']) := by
  rw [Cell.literal, String.toList_append, String.toList_append]
  rfl

theorem literal_timestamp (t : SortableTime) :
    (Cell.timestamp t).literal = (Cell.text t.text).literal := by
  have hmem : ∀ c ∈ t.text.toList, Cell.quotedChar c = [c] := fun c hc =>
    quotedChar_self fun heq => Iso.apostrophe_not_mem_instant (heq ▸ hc)
  apply String.toList_injective
  rw [toList_literal_timestamp, toList_literal_text, List.flatMap_congr hmem,
    List.flatMap_singleton']

theorem scan?_text (h : Closes stop) (s : String) (rest : List Char) :
    scan? ((Cell.text s).literal.toList ++ stop :: rest) =
      some (quoted (s.toList.flatMap Cell.quotedChar), stop :: rest) := by
  obtain ⟨hstop, -, -, -⟩ := h.ends
  rw [toList_literal_text, List.cons_append, List.append_assoc, List.singleton_append, scan?,
    inside?_quoted hstop]
  rfl

theorem scan?_blob (h : Closes stop) (bytes : Bytes) (rest : List Char) :
    scan? ((Cell.blob bytes).literal.toList ++ stop :: rest) =
      some (blob (bytes.flatMap Bytes.hexDigits), stop :: rest) := by
  obtain ⟨-, -, hstop, -⟩ := h.ends
  have hends : ∀ c ∈ (stop :: rest).head?, ¬ isHexDigit c := by simp [hstop]
  rw [toList_literal_blob, List.cons_append, List.cons_append, scan?,
    takeWhile_run (fun _ => isHexDigit_of_mem) hends,
    dropWhile_run (fun _ => isHexDigit_of_mem) hends]

theorem number?_toDigits (h : Closes stop) (sign : List Char) (n : Nat) (rest : List Char) :
    number? sign (Nat.toDigits 10 n ++ stop :: rest) =
      some (number (sign ++ Nat.toDigits 10 n), stop :: rest) := by
  obtain ⟨-, -, -, hstop⟩ := h.ends
  have hdigits : ∀ c ∈ Nat.toDigits 10 n, Text.isDigit c := fun _ => Text.isDigit_of_mem_toDigits
  have hends : ∀ c ∈ (stop :: rest).head?, ¬ Text.isDigit c := by simp [hstop]
  rw [number?, takeWhile_run hdigits hends, dropWhile_run hdigits hends]
  split
  · rename_i hnil
    exact absurd hnil Nat.toDigits_ne_nil
  · rfl

theorem scan?_toDigits (h : Closes stop) (n : Nat) (rest : List Char) :
    scan? (Nat.toDigits 10 n ++ stop :: rest) = number? [] (Nat.toDigits 10 n ++ stop :: rest) := by
  obtain ⟨c, cs, hcs⟩ := List.exists_cons_of_ne_nil (Nat.toDigits_ne_nil (n := n) (b := 10))
  have hc : Text.isDigit c := Text.isDigit_of_mem_toDigits (hcs ▸ List.mem_cons_self ..)
  rw [hcs, List.cons_append]
  apply scan?.eq_4
  · rintro _ heq
    obtain ⟨rfl, -⟩ := List.cons.inj heq
    cases hc
  · rintro _ heq
    obtain ⟨rfl, hx⟩ := List.cons.inj heq
    rw [Text.toDigits_of_zero_head hcs, List.nil_append] at hx
    obtain ⟨rfl, -⟩ := List.cons.inj hx
    exact h.ends.2.1 rfl
  · rintro _ heq
    obtain ⟨rfl, -⟩ := List.cons.inj heq
    cases hc

theorem scan?_decimal (h : Closes stop) (n : Int) (rest : List Char) :
    scan? ((Text.decimal n).toList ++ stop :: rest) =
      some (number (Text.decimal n).toList, stop :: rest) := by
  cases n with
  | ofNat n =>
    rw [Int.ofNat_eq_natCast, Text.toList_decimal_ofNat, scan?_toDigits h, number?_toDigits h,
      List.nil_append]
  | negSucc n =>
    rw [Text.toList_decimal_negSucc, List.cons_append, scan?, number?_toDigits h,
      List.singleton_append]

theorem scan?_literal (h : Closes stop) (cell : Cell) (rest : List Char) :
    ∃ l, scan? (cell.literal.toList ++ stop :: rest) = some (l, stop :: rest) ∧ l.Denotes cell := by
  have htext : ∀ s : String, (quoted (s.toList.flatMap Cell.quotedChar)).text? = some s := by
    intro s
    rw [text?, unescape?_quoted, Option.map_some, String.ofList_toList]
  cases cell with
  | bigint n => exact ⟨_, scan?_decimal h n.toInt rest, Text.int?_decimal n.toInt⟩
  | int n => exact ⟨_, scan?_decimal h n.toInt rest, Text.int?_decimal n.toInt⟩
  | text s => exact ⟨_, scan?_text h s rest, htext s⟩
  | blob bytes => exact ⟨_, scan?_blob h bytes rest, ofHexDigits?_hex bytes⟩
  | timestamp t =>
    rw [literal_timestamp]
    exact ⟨_, scan?_text h t.text rest, htext t.text⟩

theorem list?_comma {cs rest : List Char} {l : Literal} (h : scan? cs = some (l, ',' :: rest)) :
    list? cs = (list? rest).map fun p => (l :: p.1, p.2) := by
  rw [list?]
  split <;> simp_all

theorem list?_paren {cs rest : List Char} {l : Literal} (h : scan? cs = some (l, ')' :: rest)) :
    list? cs = some ([l], rest) := by
  rw [list?]
  split <;> simp_all

/-- As many literals are read as were written, each for its cell, and nothing of what follows. -/
theorem list?_literals (cells : List Cell) (hcells : cells ≠ []) (rest : List Char) :
    ∃ ls, list? ((",".intercalate (cells.map Cell.literal)).toList ++ ')' :: rest) =
      some (ls, rest) ∧ List.Forall₂ (fun cell l => l.Denotes cell) cells ls := by
  rw [String.toList_intercalate, List.map_map]
  induction cells with
  | nil => exact absurd rfl hcells
  | cons cell cells ih =>
    cases cells with
    | nil =>
      obtain ⟨l, hscan, hl⟩ := scan?_literal (.inr rfl) cell rest
      refine ⟨[l], ?_, .cons hl .nil⟩
      rw [List.map_singleton, List.intercalate_singleton]
      exact list?_paren hscan
    | cons next cells =>
      obtain ⟨ls, hlist, hls⟩ := ih (List.cons_ne_nil _ _)
      obtain ⟨l, hscan, hl⟩ := scan?_literal (.inl rfl) cell
        (",".toList.intercalate ((next :: cells).map (String.toList ∘ Cell.literal)) ++ ')' :: rest)
      refine ⟨l :: ls, ?_, .cons hl hls⟩
      rw [List.map_cons, List.map_cons, List.intercalate_cons_cons, ← List.map_cons,
        List.append_assoc, List.append_assoc]
      exact (list?_comma hscan).trans (by rw [hlist]; rfl)

theorem Denotes.eq {l : Literal} {c d : Cell} (hc : l.Denotes c) (hd : l.Denotes d)
    (hkind : c.kind = d.kind) : c = d := by
  cases c with
  | bigint n =>
    cases d with
    | bigint m => exact congrArg Cell.bigint (Int64.toInt_inj.mp (Option.some.inj (hc.symm.trans hd)))
    | _ => cases hkind
  | int n =>
    cases d with
    | int m => exact congrArg Cell.int (Int32.toInt_inj.mp (Option.some.inj (hc.symm.trans hd)))
    | _ => cases hkind
  | text s =>
    cases d with
    | text r => exact congrArg Cell.text (Option.some.inj (hc.symm.trans hd))
    | _ => cases hkind
  | blob bytes =>
    cases d with
    | blob others => exact congrArg Cell.blob (Option.some.inj (hc.symm.trans hd))
    | _ => cases hkind
  | timestamp t =>
    cases d with
    | timestamp u =>
      exact congrArg Cell.timestamp (SortableTime.text_injective (Option.some.inj (hc.symm.trans hd)))
    | _ => cases hkind

end Literal

end TraceIndex
