import TraceIndex.Proofs.Literals
import TraceIndex.Proofs.Operations

namespace TraceIndex.Statement

variable {s t : Statement}

def Says (s : Statement) (column : String) (l : Literal) : Prop :=
  ∃ cell, s.get? column = some cell ∧ l.Denotes cell

def expiry : Option UInt32 → String
  | some n => " USING TTL " ++ Text.decimal n.toNat
  | none => ""

theorem expiry_injective : Function.Injective expiry := by
  have hsome : ∀ n : UInt32, expiry (some n) ≠ "" := by
    intro n h
    have hlist := congrArg String.toList h
    rw [expiry, String.toList_append] at hlist
    cases hlist
  intro m n h
  cases m with
  | none =>
    cases n with
    | none => rfl
    | some n => exact absurd h.symm (hsome n)
  | some m =>
    cases n with
    | none => exact absurd h (hsome m)
    | some n =>
      have hlist := congrArg String.toList h
      rw [expiry, expiry, String.toList_append, String.toList_append] at hlist
      have hdecimal := String.toList_injective (List.append_cancel_left hlist)
      exact congrArg some (UInt32.toNat_inj.mp (Int.ofNat.inj (Text.decimal_injective hdecimal)))

/-- A marker is left only where nothing is bound. -/
theorem ttlText_of_validate (h : s.validate = .ok ()) : s.ttlText = expiry s.ttl := by
  rw [validate] at h
  split at h
  · cases h
  · rw [ttlText]
    cases hbinds : s.insert.bindsTtl with
    | true =>
      cases httl : s.ttl with
      | some n => rfl
      | none =>
        rw [hbinds, httl] at h
        cases h
    | false =>
      cases httl : s.ttl with
      | some n =>
        rw [hbinds, httl] at h
        cases h
      | none => rfl

def cells (s : Statement) : List Cell := s.insert.columns.filterMap s.get?

theorem map_columns {β : Type} {f : Cell → β} {g : String → β} (h : s.validate = .ok ())
    (hg : ∀ c cell, s.get? c = some cell → g c = f cell) :
    s.insert.columns.map g = s.cells.map f := by
  rw [cells, List.map_filterMap, ← List.filterMap_eq_map]
  refine List.filterMap_congr fun c hc => ?_
  obtain ⟨cell, hcell⟩ := Option.isSome_iff_exists.mp (get?_of_validate h c hc)
  rw [hcell, Option.map_some, Function.comp_apply, hg c cell hcell]

theorem columns_ne_nil (i : Insert) : i.columns ≠ [] := by
  rw [Insert.columns]
  cases i.table <;> exact List.cons_ne_nil _ _

theorem render_of_validate (h : s.validate = .ok ()) :
    s.render = s.insert.head ++
      (",".intercalate (s.cells.map Cell.literal) ++ ")" ++ expiry s.ttl) := by
  have hvalues : s.insert.columns.map s.literalOrMarker = s.cells.map Cell.literal :=
    map_columns h fun c cell hcell => by rw [literalOrMarker, hcell]
  rw [render, ttlText_of_validate h, hvalues]
  simp only [String.append_assoc]

/-- Each value is read from the place where it was written, and nothing else is. -/
theorem render_reads (h : s.validate = .ok ()) :
    ∃ values literals, s.render = s.insert.head ++ values ∧
      Literal.list? values.toList = some (literals, (expiry s.ttl).toList) ∧
      List.Forall₂ s.Says s.insert.columns literals := by
  have hget : s.insert.columns.map s.get? = s.cells.map some := map_columns h fun _ _ hcell => hcell
  have hcells : s.cells ≠ [] := by
    intro hnil
    rw [hnil, List.map_nil, List.map_eq_nil_iff] at hget
    exact columns_ne_nil s.insert hget
  obtain ⟨ls, hlist, hls⟩ := Literal.list?_literals s.cells hcells (expiry s.ttl).toList
  refine ⟨_, ls, render_of_validate h, ?_, ?_⟩
  · rw [← hlist, String.toList_append, String.toList_append, List.append_assoc]
    rfl
  · have hreads : List.Forall₂ (fun o l => ∃ cell, o = some cell ∧ l.Denotes cell)
        (s.cells.map some) ls :=
      List.forall₂_map_left_iff.mpr (hls.imp fun cell _ hl => ⟨cell, rfl, hl⟩)
    rw [← hget] at hreads
    exact (List.forall₂_map_left_iff (f := s.get?)).mp hreads

theorem get?_eq_of_reads {cs : List String} {ls : List Literal} (hs : List.Forall₂ s.Says cs ls)
    (ht : List.Forall₂ t.Says cs ls)
    (hkind : ∀ c ∈ cs, (s.get? c).map Cell.kind = (t.get? c).map Cell.kind) :
    ∀ c ∈ cs, s.get? c = t.get? c := by
  induction hs with
  | nil => exact fun _ hc => absurd hc List.not_mem_nil
  | cons hreads _ ih =>
    cases ht with
    | cons hreads' hrest =>
      obtain ⟨hfirst, hkinds⟩ := List.forall_mem_cons.mp hkind
      obtain ⟨cell, hget, hcell⟩ := hreads
      obtain ⟨cell', hget', hcell'⟩ := hreads'
      rw [hget, hget'] at hfirst
      refine List.forall_mem_cons.mpr ⟨?_, ih hrest hkinds⟩
      rw [hget, hget', hcell.eq hcell' (Option.some.inj hfirst)]

theorem render_congr (hinsert : t.insert = s.insert)
    (hvalues : ∀ c ∈ s.insert.columns, s.get? c = t.get? c) (httl : s.ttl = t.ttl) :
    s.render = t.render := by
  have hliterals : s.insert.columns.map s.literalOrMarker =
      s.insert.columns.map t.literalOrMarker :=
    List.map_congr_left fun c hc => by rw [literalOrMarker, literalOrMarker, hvalues c hc]
  rw [render, render, ttlText, ttlText, hinsert, hliterals, httl]

/-- A statement that may run is logged so that its values are read back, each in the place of its
column and up to the parenthesis that closes them all. An expiry stands behind it if one is bound,
and nothing else. Two such statements of one insert that bind cells of the same kinds are logged
alike exactly if they bind the same cells and the same expiry. -/
theorem render_tells (s : Statement) (h : s.validate = .ok ()) :
    (∃ values literals, s.render = s.insert.head ++ values ∧
      Literal.list? values.toList = some (literals, (expiry s.ttl).toList) ∧
      List.Forall₂ s.Says s.insert.columns literals) ∧
    ∀ t : Statement, t.insert = s.insert → t.validate = .ok () →
      (∀ c ∈ s.insert.columns, (s.get? c).map Cell.kind = (t.get? c).map Cell.kind) →
      (s.render = t.render ↔
        (∀ c ∈ s.insert.columns, s.get? c = t.get? c) ∧ s.ttl = t.ttl) := by
  refine ⟨render_reads h, fun t hinsert ht hkind => ⟨fun heq => ?_, fun ⟨hvalues, httl⟩ => ?_⟩⟩
  · obtain ⟨values, ls, hrender, hlist, hreads⟩ := render_reads h
    obtain ⟨values', ls', hrender', hlist', hreads'⟩ := render_reads ht
    rw [hrender, hrender', hinsert] at heq
    have hvalues : values = values' := by
      have hlists := congrArg String.toList heq
      rw [String.toList_append, String.toList_append] at hlists
      exact String.toList_injective (List.append_cancel_left hlists)
    rw [hvalues, hlist'] at hlist
    obtain ⟨rfl, hexpiry⟩ := Prod.mk.inj (Option.some.inj hlist)
    rw [hinsert] at hreads'
    exact ⟨get?_eq_of_reads hreads hreads' hkind,
      (expiry_injective (String.toList_injective hexpiry)).symm⟩
  · exact render_congr hinsert hvalues httl

theorem render_tells_apostrophes :
    let insert : Insert := ⟨"insert-duration", .byDuration, true⟩
    let s : Statement := ⟨insert,
      [("service_name", .text "o'reilly',(''"), ("span_name", .text ")\n--0x"), ("bucket", .int 0),
        ("duration", .bigint (-7)), ("ts", .timestamp ⟨0⟩), ("trace_id", .blob [0x27, 0xFF])],
      some 60⟩
    let t : Statement := s.bind "service_name" (.text "o'reilly',('")
    s.render = "INSERT INTO span_duration_index " ++
      "(service_name,span_name,bucket,duration,ts,trace_id) VALUES ('o''reilly'',(''''',')\n--0x'," ++
      "0,-7,'1970-01-01T00:00:00.000000Z',0x27ff) USING TTL 60" ∧
    s.validate = .ok () ∧
    (∃ values literals, s.render = s.insert.head ++ values ∧
      Literal.list? values.toList = some (literals, (expiry s.ttl).toList) ∧
      List.Forall₂ s.Says s.insert.columns literals) ∧
    t.insert = s.insert ∧ t.validate = .ok () ∧
    (∀ c ∈ s.insert.columns, (s.get? c).map Cell.kind = (t.get? c).map Cell.kind) ∧
    s.render ≠ t.render := by
  intro insert s t
  have hs : s.validate = .ok () := by decide
  have ht : t.validate = .ok () := by decide
  have hkind : ∀ c ∈ s.insert.columns, (s.get? c).map Cell.kind = (t.get? c).map Cell.kind := by
    decide
  obtain ⟨hreads, htells⟩ := render_tells s hs
  refine ⟨by decide +kernel, hs, hreads, rfl, ht, hkind, fun heq => ?_⟩
  obtain ⟨hvalues, -⟩ := (htells t rfl ht hkind).mp heq
  exact absurd (hvalues "service_name" (by decide)) (by decide)

end TraceIndex.Statement
