import TraceIndex.Proofs.Lowercasing
import TraceIndex.Proofs.Partitions
import TraceIndex.Proofs.Reorderings

namespace TraceIndex

namespace Utf8

variable {c d : Char}

/-- A character before another has bytes before those of the other, whatever follows. -/
theorem encodeChar_lt (h : c < d) (x y : Bytes) :
    String.utf8EncodeChar c ++ x < String.utf8EncodeChar d ++ y := by
  have hlt : c.val.toNat < d.val.toNat := h
  have hmax : d.val.toNat < 0x110000 := by
    obtain hvalid | ⟨-, hvalid⟩ := d.valid <;> omega
  -- Each byte carries six bits more, so their numbers are told apart one division after another.
  have hdigits : ∀ n : Nat, n / 4096 = n / 64 / 64 ∧ n / 262144 = n / 64 / 64 / 64 := by
    intro n
    omega
  simp only [String.utf8EncodeChar, (hdigits _).1, (hdigits _).2]
  generalize c.val.toNat = v at hlt
  generalize d.val.toNat = w at hlt hmax
  split_ifs <;>
    simp only [List.cons_append, List.nil_append, List.cons_lt_cons_iff, UInt8.lt_iff_toNat_lt,
      ← UInt8.toNat_inj, UInt8.toNat_ofNat'] <;>
    omega

theorem encodeChars_lt {cs ds : List Char} (h : cs < ds) : encodeChars cs < encodeChars ds := by
  induction h with
  | @nil d ds =>
    obtain ⟨b, bytes, hbytes⟩ := List.exists_cons_of_ne_nil (String.utf8EncodeChar_ne_nil (c := d))
    rw [encodeChars, encodeChars, List.flatMap_cons, hbytes]
    exact List.nil_lt_cons ..
  | rel hcd => exact encodeChar_lt hcd _ _
  | cons _ ih => exact List.append_left_lt ih

theorem encode_lt {s t : String} (h : s < t) : encode s < encode t :=
  encodeChars_lt (String.lt_iff.mp h)

end Utf8

def Endpoint.rebuilt (e : Endpoint) : Endpoint := .of e.service e.ipv4 e.port

theorem Endpoint.service?_rebuilt (e : Endpoint) : e.rebuilt.service? = e.service? := by
  rw [service?, rebuilt, Endpoint.of, Text.lowercase_lowercase]
  rfl

namespace Span

def rebuilt (s : Span) : Span :=
  { s with
    events := s.events.map fun e => { e with endpoint := e.endpoint.map Endpoint.rebuilt }
    tags := s.tags.map fun t => { t with endpoint := t.endpoint.map Endpoint.rebuilt } }

theorem endpoints_rebuilt (s : Span) : s.rebuilt.endpoints = s.endpoints.map Endpoint.rebuilt := by
  simp only [endpoints, rebuilt, List.filterMap_map, List.map_append, List.map_filterMap]
  rfl

theorem services_rebuilt (s : Span) : s.rebuilt.services = s.services := by
  have hnames : s.rebuilt.endpoints.filterMap (·.service?) = s.endpoints.filterMap (·.service?) := by
    rw [endpoints_rebuilt, List.filterMap_map]
    apply List.filterMap_congr
    intro e _
    rw [Function.comp_apply, e.service?_rebuilt]
  rw [services, services, hnames]

theorem annotationKeys_rebuilt (s : Span) : s.rebuilt.annotationKeys = s.annotationKeys := by
  have hbind : ∀ e : Option Endpoint,
      (e.map Endpoint.rebuilt).bind (·.service?) = e.bind (·.service?) := by
    intro e
    cases e with
    | none => rfl
    | some e => rw [Option.map_some, Option.bind_some, Option.bind_some, e.service?_rebuilt]
  have hevents : s.rebuilt.events.filterMap eventKey? = s.events.filterMap eventKey? := by
    simp only [rebuilt, List.filterMap_map]
    apply List.filterMap_congr
    intro e _
    simp only [Function.comp_apply, eventKey?, hbind]
  have htags : s.rebuilt.tags.flatMap tagKeys = s.tags.flatMap tagKeys := by
    simp only [rebuilt, List.flatMap_map]
    apply List.flatMap_congr
    intro t _
    simp only [tagKeys, hbind]
  rw [annotationKeys, annotationKeys, hevents, htags]

theorem dropRepeats_increasing {l : List String} (h : l.Pairwise fun a b => a ≤ b) :
    (dropRepeats l).Pairwise fun a b => a < b := by
  fun_induction dropRepeats l with
  | case1 b rest ih => exact ih (List.pairwise_cons.mp h).2
  | case2 a b rest hne ih =>
    obtain ⟨ha, hrest⟩ := List.pairwise_cons.mp h
    refine List.pairwise_cons.mpr ⟨fun c hc => ?_, ih hrest⟩
    have hab : a < b := Std.lt_of_le_of_ne (ha b List.mem_cons_self) hne
    obtain rfl | hc := List.mem_cons.mp (mem_dropRepeats hc)
    · exact hab
    · exact Std.lt_of_lt_of_le hab ((List.pairwise_cons.mp hrest).1 c hc)
  | case3 l hshort =>
    cases l with
    | nil => exact .nil
    | cons a l =>
      cases l with
      | nil => exact List.pairwise_singleton ..
      | cons b l => exact absurd rfl (hshort a b l)

def Reaches (s : Span) (endpoint : Endpoint) : Prop :=
  (∃ e ∈ s.events, e.endpoint = some endpoint) ∨ ∃ t ∈ s.tags, t.endpoint = some endpoint

theorem mem_services_iff_reaches {s : Span} {name : String} :
    name ∈ s.services ↔
      name ≠ "" ∧ ∃ endpoint, s.Reaches endpoint ∧ name = Text.lowercase endpoint.service := by
  have hservice : ∀ e : Endpoint, e.service? = some name ↔
      name = Text.lowercase e.service ∧ name ≠ "" := by
    intro e
    have hserves : Serves (some e) name ↔ e.service? = some name := serves_iff
    simpa [Serves] using hserves.symm
  simp only [mem_services_iff, endpoints, List.mem_append, List.mem_filterMap, hservice, Reaches]
  constructor
  · rintro ⟨e, he, hname, hne⟩
    exact ⟨hne, e, he, hname⟩
  · rintro ⟨hne, e, he, hname⟩
    exact ⟨e, he, hname, hne⟩

/-- The services of a span are the lowercase names of the endpoints of its events and tags that are
not empty, each once and in the order of their bytes. Lowercasing a text again changes nothing, so a
span whose endpoints are made anew has the same services and is found by the same keys. -/
theorem services_exact (s : Span) :
    s.services.Pairwise (fun a b => Utf8.encode a < Utf8.encode b) ∧
    "" ∉ s.services ∧
    (∀ name, name ∈ s.services ↔
      name ≠ "" ∧ ∃ endpoint, s.Reaches endpoint ∧ name = Text.lowercase endpoint.service) ∧
    (∀ text, Text.lowercase (Text.lowercase text) = Text.lowercase text) ∧
    s.rebuilt.services = s.services ∧ s.rebuilt.annotationKeys = s.annotationKeys := by
  have hincreasing : s.services.Pairwise fun a b => Utf8.encode a < Utf8.encode b :=
    (dropRepeats_increasing (sorted_texts _)).imp Utf8.encode_lt
  have hempty : "" ∉ s.services := fun h => (mem_services_iff_reaches.mp h).1 rfl
  exact ⟨hincreasing, hempty, fun name => mem_services_iff_reaches, Text.lowercase_lowercase,
    s.services_rebuilt, s.annotationKeys_rebuilt⟩

end Span

end TraceIndex
