import TraceIndex.Proofs.RoundTrips

namespace TraceIndex

namespace Packed

/-- What the first reader makes of some bytes, the second makes of them with more behind. -/
def Continues {α : Type} (read longer : Bytes → Option (α × Bytes)) : Prop :=
  ∀ bytes a rest more, read bytes = some (a, rest) → longer (bytes ++ more) = some (a, rest ++ more)

section Readers

variable {α β : Type} {read longer : Bytes → Option (α × Bytes)}

theorem Continues.map (h : Continues read longer) (f : α → β) :
    Continues (fun bytes => (read bytes).map fun r => (f r.1, r.2))
      fun bytes => (longer bytes).map fun r => (f r.1, r.2) := by
  intro bytes b rest more hread
  obtain ⟨⟨a, left⟩, ha, heq⟩ := Option.map_eq_some_iff.mp hread
  obtain ⟨rfl, rfl⟩ := Prod.mk.inj heq
  simp only [h bytes a left more ha, Option.map_some]

theorem Continues.bind (h : Continues read longer) {next after : α → Bytes → Option (β × Bytes)}
    (hnext : ∀ a, Continues (next a) (after a)) :
    Continues (fun bytes => (read bytes).bind fun r => next r.1 r.2)
      fun bytes => (longer bytes).bind fun r => after r.1 r.2 := by
  intro bytes b rest more hread
  obtain ⟨⟨a, left⟩, ha, hb⟩ := Option.bind_eq_some_iff.mp hread
  simp only [h bytes a left more ha, Option.bind_some]
  exact hnext a left b rest more hb

theorem Continues.ite {c : Prop} [Decidable c] {other longer' : Bytes → Option (α × Bytes)}
    (h : Continues read longer) (hother : Continues other longer') :
    Continues (fun bytes => if c then read bytes else other bytes)
      fun bytes => if c then longer bytes else longer' bytes := by
  by_cases hc : c
  · simpa only [if_pos hc] using h
  · simpa only [if_neg hc] using hother

theorem some_continues (a : α) :
    Continues (fun bytes => some (a, bytes)) fun bytes => some (a, bytes) := by
  rintro bytes b rest more ⟨⟩
  rfl

theorem none_continues :
    Continues (fun _ => (none : Option (α × Bytes))) fun _ => none := by
  rintro bytes a rest more ⟨⟩

theorem take?_continues (n : Nat) : Continues (take? n) (take? n) := by
  intro bytes first rest more hread
  have hle : n ≤ bytes.length := by
    by_contra hshort
    have hlength : (bytes.take n).length ≠ n := by
      rw [List.length_take]
      omega
    rw [take?, if_neg hlength] at hread
    cases hread
  have hfull : (bytes.take n).length = n := List.length_take_of_le hle
  rw [take?, if_pos hfull] at hread
  obtain ⟨rfl, rfl⟩ := Prod.mk.inj (Option.some.inj hread)
  rw [take?, List.take_append_of_le_length hle, List.drop_append_of_le_length hle, if_pos hfull]

theorem number?_continues (width : Nat) : Continues (number? width) (number? width) :=
  (take?_continues width).map Bytes.ofBig

theorem long?_continues (head : Nat → Head) (width : Nat) :
    Continues (long? head width) (long? head width) :=
  (number?_continues width).map head

theorem extension?_continues (length : Nat) :
    Continues (extension? length) (extension? length) := by
  have hinside : ∀ kind : Bytes, Continues
      (fun bytes => (take? length bytes).map fun r => (extension (kind.headD 0) r.1, r.2))
      fun bytes => (take? length bytes).map fun r => (extension (kind.headD 0) r.1, r.2) :=
    fun kind => (take?_continues length).map fun inside => extension (kind.headD 0) inside
  intro bytes v rest more hread
  have hboth := ((take?_continues 1).bind hinside) bytes v rest more
  simp only [extension?, Option.bind_eq_bind, Option.pure_def] at hread ⊢
  simp only [Option.map_eq_bind, Function.comp_def] at hboth
  exact hboth hread

theorem head?_continues : Continues head? head? := by
  rintro (_ | ⟨m, bytes⟩) h rest more
  · rintro ⟨⟩
  · rw [List.cons_append]
    simp only [head?]
    -- the first byte alone says how the head is read
    split_ifs
    on_goal 6 => split
    all_goals
      first
      | exact some_continues _ bytes h rest more
      | exact long?_continues _ _ bytes h rest more
      | exact none_continues bytes h rest more

end Readers

section Values

variable (room fuel : Nat)

def behind? : Head → Bytes → Option (Packed × Bytes)
  | .whole v, rest => some (v, rest)
  | .unsigned width, rest => (number? width rest).map fun r => (unsigned (UInt64.ofNat r.1), r.2)
  | .signed width, rest =>
    (number? width rest).map fun r => (signed (Int64.ofInt (ofComplement width r.1)), r.2)
  | .float width, rest => (take? width rest).map fun r => (float r.1, r.2)
  | .text length, rest => (take? length rest).map fun r => (text r.1, r.2)
  | .binary length, rest => (take? length rest).map fun r => (binary r.1, r.2)
  | .extension length, rest => if room = 0 then none else extension? length rest
  | .array length, rest =>
    if room = 0 then none
    else (items? (room - 1) length fuel rest).map fun r => (array r.1, r.2)
  | .map length, rest =>
    if room = 0 then none
    else (entries? (room - 1) length fuel rest).map fun r => (map r.1, r.2)

theorem value?_succ (bytes : Bytes) :
    value? room (fuel + 1) bytes = (head? bytes).bind fun r => behind? room fuel r.1 r.2 := by
  rw [value?]
  rcases head? bytes with _ | ⟨_ | _, rest⟩ <;> rfl

theorem items?_succ (length : Nat) (bytes : Bytes) :
    items? room length (fuel + 1) bytes =
      if length = 0 then some ([], bytes)
      else (value? room fuel bytes).bind fun r =>
        (items? room (length - 1) fuel r.2).map fun q => (r.1 :: q.1, q.2) := by
  rw [items?]
  rcases value? room fuel bytes with _ | ⟨v, rest⟩ <;> rfl

theorem entries?_succ (length : Nat) (bytes : Bytes) :
    entries? room length (fuel + 1) bytes =
      if length = 0 then some ([], bytes)
      else (value? room fuel bytes).bind fun r => (value? room fuel r.2).bind fun q =>
        (entries? room (length - 1) fuel q.2).map fun p => ((r.1, q.1) :: p.1, p.2) := by
  rw [entries?]
  rcases value? room fuel bytes with _ | ⟨k, rest⟩
  · rfl
  · simp only [Option.bind_some]
    rcases value? room fuel rest with _ | ⟨v, rest⟩ <;> rfl

end Values

/-- Steps to spare change nothing of what is read. -/
structure Spared (fuel : Nat) : Prop where
  value : ∀ room extra, Continues (value? room fuel) (value? room (fuel + extra))
  items : ∀ room length extra,
    Continues (items? room length fuel) (items? room length (fuel + extra))
  entries : ∀ room length extra,
    Continues (entries? room length fuel) (entries? room length (fuel + extra))

theorem Spared.behind {fuel : Nat} (h : Spared fuel) (room extra : Nat) (first : Head) :
    Continues (behind? room fuel first) (behind? room (fuel + extra) first) := by
  cases first with
  | whole v => exact some_continues v
  | unsigned width => exact (number?_continues width).map fun n => unsigned (UInt64.ofNat n)
  | signed width =>
    exact (number?_continues width).map fun n => signed (Int64.ofInt (ofComplement width n))
  | float width => exact (take?_continues width).map float
  | text length => exact (take?_continues length).map text
  | binary length => exact (take?_continues length).map binary
  | extension length => exact none_continues.ite (extension?_continues length)
  | array length => exact none_continues.ite ((h.items (room - 1) length extra).map array)
  | map length => exact none_continues.ite ((h.entries (room - 1) length extra).map map)

theorem spared (fuel : Nat) : Spared fuel := by
  induction fuel with
  | zero =>
    refine ⟨fun room extra => ?_, fun room length extra => ?_, fun room length extra => ?_⟩
    · intro bytes v rest more hread
      rw [value?] at hread
      cases hread
    · intro bytes items rest more hread
      rw [items?] at hread
      cases hread
    · intro bytes entries rest more hread
      rw [entries?] at hread
      cases hread
  | succ fuel ih =>
    refine ⟨fun room extra => ?_, fun room length extra => ?_, fun room length extra => ?_⟩
    · rw [Nat.succ_add, funext (value?_succ room fuel), funext (value?_succ room (fuel + extra))]
      exact head?_continues.bind fun first => ih.behind room extra first
    · rw [Nat.succ_add, funext (items?_succ room fuel length),
        funext (items?_succ room (fuel + extra) length)]
      have hrest := fun v : Packed =>
        (ih.items room (length - 1) extra).map fun items => v :: items
      exact (some_continues []).ite ((ih.value room extra).bind hrest)
    · rw [Nat.succ_add, funext (entries?_succ room fuel length),
        funext (entries?_succ room (fuel + extra) length)]
      have hrest := fun k v : Packed =>
        (ih.entries room (length - 1) extra).map fun entries => (k, v) :: entries
      have hentry := fun k : Packed => (ih.value room extra).bind (hrest k)
      exact (some_continues []).ite ((ih.value room extra).bind hentry)

section Whole

variable {depth : Nat} {v : Packed}

theorem Reads.parse?_append (h : Reads depth v) (hdepth : depth ≤ deepest) (suffix : Bytes) :
    Packed.parse? (print v ++ suffix) = some v := by
  have hfuel : 2 * (print v).length ≤ enough (print v ++ suffix) := by
    rw [enough, List.length_append]
    omega
  rw [Packed.parse?, h.value deepest _ suffix hdepth hfuel, Option.map_some]

/-- Of a value that is cut short nothing is read. -/
theorem Reads.parse?_prefix (h : Reads depth v) (hdepth : depth ≤ deepest) {part : Bytes}
    (hpart : part <+: print v) (hshort : part ≠ print v) : Packed.parse? part = none := by
  obtain ⟨missing, hmissing⟩ := hpart
  by_contra hread
  obtain ⟨w, hw⟩ := Option.ne_none_iff_exists'.mp hread
  rw [Packed.parse?] at hw
  obtain ⟨⟨w, rest⟩, hw, -⟩ := Option.map_eq_some_iff.mp hw
  -- the whole, read with the steps that its part would take, leaves the missing bytes over
  have hover := (spared (enough part)).value deepest (enough (print v)) part w rest missing hw
  have hwhole := h.value deepest (enough part + enough (print v)) [] hdepth (by
    rw [enough, enough]
    omega)
  rw [hmissing] at hover
  rw [List.append_nil, hover] at hwhole
  obtain ⟨-, hrest⟩ := Prod.mk.inj (Option.some.inj hwhole)
  obtain ⟨-, rfl⟩ := List.append_eq_nil_iff.mp hrest
  exact hshort (by rw [← hmissing, List.append_nil])

end Whole

theorem reads_span {s : Span} (hs : s.Short) : Reads 4 (s.write form) := carries.span hs

theorem reads_spans {ss : List Span} (hlength : ss.length < 0x100000000)
    (hs : ∀ s ∈ ss, s.Short) : Reads 5 (Span.writeList form ss) := by
  refine carries.list 4 _ (by rwa [List.length_map]) fun v hv => ?_
  obtain ⟨s, hmem, rfl⟩ := List.mem_map.mp hv
  exact reads_span (hs s hmem)

end Packed

namespace Codec

open Packed

/-- Spans and lists of spans are read back from the binary format, whatever follows them. Of a part
that ends before they do, nothing is read. -/
theorem msgpack_round_trip (s : Span) (ss : List Span) (hs : s.Short)
    (hlength : ss.length < 0x100000000) (hss : ∀ s ∈ ss, s.Short) :
    ∃ one many, msgpack.encode s = .ok one ∧ msgpack.encodeList ss = .ok many ∧
      (∀ suffix : Bytes,
        msgpack.decode (one ++ suffix) = .ok s ∧ msgpack.decodeList (many ++ suffix) = .ok ss) ∧
      (∀ part : Bytes, part <+: one → part ≠ one →
        ∃ m, msgpack.decode part = .error (.codec m)) ∧
      ∀ part : Bytes, part <+: many → part ≠ many →
        ∃ m, msgpack.decodeList part = .error (.codec m) := by
  have hone := reads_span hs
  have hmany := reads_spans hlength hss
  refine ⟨print (s.write form), print (Span.writeList form ss), rfl, rfl, fun suffix => ⟨?_, ?_⟩,
    fun part hpart hshort => ⟨"no span in " ++ "msgpack", ?_⟩,
    fun part hpart hshort => ⟨"no span in " ++ "msgpack", ?_⟩⟩
  · simp only [msgpack, ofForm]
    rw [hone.parse?_append (by decide), Option.bind_some, Span.read?_write lawful, orFailure]
  · simp only [msgpack, ofForm]
    rw [hmany.parse?_append (by decide), Option.bind_some, Span.readList?_writeList lawful,
      orFailure]
  · simp only [msgpack, ofForm]
    rw [hone.parse?_prefix (by decide) hpart hshort, Option.bind_none, orFailure]
  · simp only [msgpack, ofForm]
    rw [hmany.parse?_prefix (by decide) hpart hshort, Option.bind_none, orFailure]

def spread : Span where
  traceId := 0xFFFFFFFFFFFFFFFF
  id := 300
  parentId := some 70000
  name := "a name of more than thirty-one bytes"
  timestamp := some (-5000000000)
  duration := some 200
  events := [-1, -100, -1000, -100000].map fun n => ⟨n, "cs", none⟩
  tags := [.string "peer" "sixteen bytes ..." (some (.named "web"))]

theorem msgpack_round_trip_spread :
    (spread.Short ∧ [spread, spread].length < 0x100000000 ∧
      ∀ s ∈ [spread, spread], s.Short) ∧
    ∃ one many, msgpack.encode spread = .ok one ∧
      msgpack.encodeList [spread, spread] = .ok many ∧
      (∀ suffix : Bytes, msgpack.decode (one ++ suffix) = .ok spread ∧
        msgpack.decodeList (many ++ suffix) = .ok [spread, spread]) ∧
      (∀ part : Bytes, part <+: one → part ≠ one →
        ∃ m, msgpack.decode part = .error (.codec m)) ∧
      ∀ part : Bytes, part <+: many → part ≠ many →
        ∃ m, msgpack.decodeList part = .error (.codec m) := by
  have hspread : spread.Short := by decide
  have hall : ∀ s ∈ [spread, spread], s.Short := by decide
  exact ⟨⟨hspread, by decide, hall⟩, msgpack_round_trip _ _ hspread (by decide) hall⟩

end Codec

end TraceIndex
