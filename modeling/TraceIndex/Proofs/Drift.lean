import TraceIndex.Proofs.JsonTexts

namespace TraceIndex

def Span.members {α : Type} (F : Form α) (s : Span) : List (String × α) :=
  [("trace_id", F.id s.traceId), ("id", F.id s.id), ("parent_id", F.orNull F.id s.parentId),
    ("name", F.text s.name), ("timestamp", F.orNull F.time s.timestamp),
    ("duration", F.orNull F.time s.duration),
    ("annotations", F.list (s.events.map (Event.write F))),
    ("binary_annotations", F.list (s.tags.map (Tag.write F)))]

namespace Json

/-- A member that says nothing: a null, or an empty list. -/
def Omissible (m : String × Json) : Prop :=
  m.1 ∈ ["parent_id", "timestamp", "duration"] ∧ m.2 = null ∨
    m.1 ∈ ["annotations", "binary_annotations"] ∧ m.2 = array []

/-- The members of a text that tells of the span: its fields in any order, some of those that say
nothing left out, and members of other names among them. -/
def Tells (s : Span) (members : List (String × Json)) : Prop :=
  ∃ kept omitted extra, (kept ++ omitted).Perm (s.members form) ∧ (∀ m ∈ omitted, Omissible m) ∧
    (∀ m ∈ extra, m.1 ∉ Span.fields) ∧ members.Perm (kept ++ extra)

variable {s : Span} {members : List (String × Json)}

theorem Tells.once (h : Tells s members) : Form.Once Span.fields members := by
  obtain ⟨kept, omitted, extra, hkept, -, hextra, hmembers⟩ := h
  intro name hname
  have hother : (extra.map (·.1)).count name = 0 := by
    refine List.count_eq_zero.mpr fun hmem => ?_
    obtain ⟨m, hm, rfl⟩ := List.mem_map.mp hmem
    exact hextra m hm hname
  have hfields : ((kept ++ omitted).map (·.1)).count name = Span.fields.count name :=
    (hkept.map (·.1)).count_eq name
  have hone : Span.fields.count name ≤ 1 := List.nodup_iff_count_le_one.mp (by decide) name
  rw [(hmembers.map (·.1)).count_eq]
  simp only [List.map_append, List.count_append] at hfields ⊢
  omega

theorem Tells.lookup (h : Tells s members) {name : String} {v : Json}
    (hv : (name, v) ∈ s.members form) :
    members.lookup name = some v ∨ members.lookup name = none ∧ Omissible (name, v) := by
  have hname : name ∈ Span.fields := List.mem_map_of_mem (f := (·.1)) hv
  have honce := h.once
  obtain ⟨kept, omitted, extra, hkept, homitted, hextra, hmembers⟩ := h
  obtain hmem | hmem := List.mem_append.mp (hkept.mem_iff.mpr hv)
  · have hmem' : (name, v) ∈ members := hmembers.mem_iff.mpr (List.mem_append_left extra hmem)
    exact .inl (honce.lookup_eq_some hname hmem')
  · refine .inr ⟨Form.lookup_eq_none.mpr fun hfound => ?_, homitted _ hmem⟩
    have hwritten : ((s.members form).map (·.1)).Nodup := by
      change Span.fields.Nodup
      decide
    have hfields := (hkept.map (·.1)).nodup_iff.mpr hwritten
    rw [List.map_append] at hfields
    have hfound' := (hmembers.map (·.1)).mem_iff.mp hfound
    rw [List.map_append] at hfound'
    obtain hkept | hother := List.mem_append.mp hfound'
    · exact List.disjoint_of_nodup_append hfields hkept (List.mem_map_of_mem hmem)
    · obtain ⟨m, hm, rfl⟩ := List.mem_map.mp hother
      exact hextra m hm hname

theorem optional?_slot {β : Type} {read : Json → Option β} {write : β → Json}
    (hsome : ∀ b, form.isNull (write b) = false) (hread : ∀ b, read (write b) = some b)
    {b : Option β} {name : String} {slot : Option Json}
    (hname : name ∉ ["annotations", "binary_annotations"])
    (h : slot = some (form.orNull write b) ∨ slot = none ∧ Omissible (name, form.orNull write b)) :
    form.optional? read slot = some b := by
  obtain rfl | ⟨rfl, ⟨-, hnull⟩ | ⟨hlist, -⟩⟩ := h
  · exact Form.optional?_orNull lawful hsome hread b
  · cases b with
    | none => rfl
    | some b =>
      have hb := hsome b
      rw [show write b = null from hnull] at hb
      cases hb
  · exact absurd hlist hname

theorem listOrEmpty?_slot {β : Type} {read : Json → Option β} {write : β → Json}
    (hread : ∀ b, read (write b) = some b) {bs : List β} {name : String} {slot : Option Json}
    (h : slot = some (array (bs.map write)) ∨
      slot = none ∧ Omissible (name, array (bs.map write))) :
    form.listOrEmpty? read slot = some bs := by
  obtain rfl | ⟨rfl, ⟨-, hnull⟩ | ⟨-, hempty⟩⟩ := h
  · exact Form.listOrEmpty?_list lawful hread bs
  · cases hnull
  · cases bs with
    | nil => rfl
    | cons b bs => cases hempty

theorem required_slot {name : String} {v : Json} {slot : Option Json}
    (hname : name ∉ ["parent_id", "timestamp", "duration", "annotations", "binary_annotations"])
    (h : slot = some v ∨ slot = none ∧ Omissible (name, v)) : slot = some v := by
  obtain rfl | ⟨-, ⟨hmem, -⟩ | ⟨hmem, -⟩⟩ := h
  · rfl
  · exact absurd (List.mem_append_left ["annotations", "binary_annotations"] hmem) hname
  · exact absurd (List.mem_append_right ["parent_id", "timestamp", "duration"] hmem) hname

theorem fields?_span (members : List (String × Json)) :
    form.fields? Span.fields 6 (record members) =
      if Form.Once Span.fields members then some (Form.lookups Span.fields members) else none :=
  fields?_record (by decide) 6 members

theorem lookups_span (members : List (String × Json)) :
    Form.lookups Span.fields members =
      [members.lookup "trace_id", members.lookup "id", members.lookup "parent_id",
        members.lookup "name", members.lookup "timestamp", members.lookup "duration",
        members.lookup "annotations", members.lookup "binary_annotations"] :=
  rfl

theorem Tells.read? (h : Tells s members) : Span.read? form (record members) = some s := by
  have hidSome : ∀ n, form.isNull (form.id n) = false := fun n => lawful.integer_some n.toNat
  have htimeSome : ∀ n, form.isNull (form.time n) = false := fun n => lawful.integer_some n.toInt
  have hslot : ∀ m ∈ s.members form, members.lookup m.1 = some m.2 ∨
      members.lookup m.1 = none ∧ Omissible m := fun _ => h.lookup
  simp only [Span.members, List.forall_mem_cons] at hslot
  obtain ⟨htrace, hid, hparent, hname, htime, hduration, hevents, htags, -⟩ := hslot
  have hfields := fields?_span members
  rw [if_pos h.once, lookups_span, required_slot (by decide) htrace,
    required_slot (by decide) hid, required_slot (by decide) hname] at hfields
  rw [Span.read?, hfields]
  simp only [Option.bind_eq_bind, Option.bind_some, Option.pure_def, lawful.id?, lawful.text,
    optional?_slot hidSome lawful.id? (by decide) hparent,
    optional?_slot htimeSome lawful.time? (by decide) htime,
    optional?_slot htimeSome lawful.time? (by decide) hduration,
    listOrEmpty?_slot (Event.read?_write lawful) hevents,
    listOrEmpty?_slot (Tag.read?_write lawful) htags]

/-- Without a member that is always told, no span is read. -/
theorem read?_missing {name : String} (hname : name ∈ ["trace_id", "id", "name"])
    (h : name ∉ members.map (·.1)) : Span.read? form (record members) = none := by
  have hnone := Form.lookup_eq_none.mpr h
  rw [Span.read?, fields?_span]
  split
  · rw [lookups_span]
    obtain rfl | rfl | rfl : name = "trace_id" ∨ name = "id" ∨ name = "name" := by simpa using hname
    · simp only [hnone, Option.bind_eq_bind, Option.bind_some, Option.bind_none]
    · simp only [hnone, Option.bind_eq_bind, Option.bind_some, Option.bind_none,
        Option.bind_fun_none]
    · simp only [hnone, Option.bind_eq_bind, Option.bind_some, Option.bind_none,
        Option.bind_fun_none]
  · rfl

theorem read?_repeated (h : ¬ Form.Once Span.fields members) :
    Span.read? form (record members) = none := by
  rw [Span.read?, fields?_span, if_neg h]
  rfl

end Json

namespace Codec

open Json

theorem json_decode_padded {v : Json} {bytes : Bytes} (h : Padded v bytes) :
    json.decode bytes = orFailure "json" (Span.read? form v) := by
  obtain ⟨w, hw, hparse⟩ := h.parse?
  have hread : (parse? bytes).bind (Span.read? form) = Span.read? form v := by
    rw [hparse, Option.bind_some, Span.read?_congr respects hw]
  exact congrArg (orFailure "json") hread

/-- A span is decoded from every text that tells of it, with any blanks: the members of its notation
in any order, those left out that say nothing, and any values under other names. A text without the
trace, the id or the name, or with two members of one field, is refused. -/
theorem json_decode_drift (s : Span) :
    (∃ bytes, json.encode s = .ok bytes ∧ Padded (record (s.members form)) bytes) ∧
    (∀ members bytes, Tells s members → Padded (record members) bytes →
      json.decode bytes = .ok s) ∧
    ∀ members bytes, Padded (record members) bytes →
      ((∃ name ∈ ["trace_id", "id", "name"], name ∉ members.map (·.1)) ∨
        ∃ name ∈ Span.fields, 2 ≤ (members.map (·.1)).count name) →
      ∃ m, json.decode bytes = .error (.codec m) := by
  refine ⟨⟨print (s.write form), rfl, (carries_written.span fun _ _ => trivial).padded⟩,
    fun members bytes htells hbytes => ?_, fun members bytes hbytes h => ?_⟩
  · rw [json_decode_padded hbytes, htells.read?, orFailure]
  · have hnone : Span.read? form (record members) = none := by
      obtain ⟨name, hname, hmissing⟩ | ⟨name, hname, htwice⟩ := h
      · exact read?_missing hname hmissing
      · exact read?_repeated fun honce => absurd (honce name hname) (by omega)
    rw [json_decode_padded hbytes, hnone]
    exact ⟨_, rfl⟩

theorem json_decode_drift_reordered :
    let s : Span := ⟨1, 2, none, "a", none, none, [], []⟩
    let told := ascii "\x7b \"id\":2,\"trace_id\":1,\"name\":\"\\u0061\",\"x\":[1.5]\x7d"
    let untold := ascii "\x7b \"id\":2\x7d"
    json.decode told = .ok s ∧ ∃ m, json.decode untold = .error (.codec m) := by
  intro s told untold
  obtain ⟨-, htold, hrefused⟩ := json_decode_drift s
  have hblank : Blanks [0x20] := by decide
  have hkey (k : String) : Quoted (escape k) (quote :: (escape k ++ [quote])) :=
    .kept (spells_escape k).inside
  have hid : Member (escape "id", integer 2) (ascii " \"id\":2") :=
    .mk hblank (hkey "id") blanks_nil (Written.number (numeral_decimal 2)).padded
  have htrace : Member (escape "trace_id", integer 1) (ascii "\"trace_id\":1") :=
    .mk blanks_nil (hkey "trace_id") blanks_nil (Written.number (numeral_decimal 1)).padded
  have hkept : Spells (escape "a") [0x61] := .plain (by decide) (by decide) (by decide) .nil
  have hspelled : Spells (ascii "\\u0061") [0x61] := .unit (n := 0x61) rfl (.inl (by decide)) .nil
  have hname : Member (escape "name", text "a") (ascii "\"name\":\"\\u0061\"") :=
    .mk blanks_nil (hkey "name") blanks_nil (Written.string (.spelled hkept hspelled)).padded
  have hfive : Digits [0x35] := ⟨by decide, List.all_eq_true.mp (by decide)⟩
  have hnumber := Numeral.mk (.inl rfl) (whole_digits 1) (.inr ⟨_, hfive, rfl⟩) (.inl rfl)
  have hother := Member.mk blanks_nil (hkey "x") blanks_nil
    (Written.array (.last (Written.number hnumber).padded)).padded
  let kept : List (String × Json) :=
    [("trace_id", integer 1), ("id", integer 2), ("name", text "a")]
  let omitted : List (String × Json) := [("parent_id", null), ("timestamp", null),
    ("duration", null), ("annotations", array []), ("binary_annotations", array [])]
  let extra : List (String × Json) := [("x", array [number [0x31, 0x2E, 0x35]])]
  have htells : Tells s [("id", integer 2), ("trace_id", integer 1), ("name", text "a"),
      ("x", array [number [0x31, 0x2E, 0x35]])] := by
    refine ⟨kept, omitted, extra, .cons _ (.cons _ (.swap _ _ _)), ?_, ?_, .swap _ _ _⟩
    · simp [omitted, Omissible]
    · simp [extra, Span.fields]
  constructor
  · exact htold _ told htells
      (Written.object (.more hid (.more htrace (.more hname (.last hother))))).padded
  · refine hrefused [("id", integer 2)] untold (Written.object (.last hid)).padded (.inl ?_)
    exact ⟨"trace_id", by decide, by decide⟩

end Codec

end TraceIndex
