import Mathlib.Data.List.Induction
import TraceIndex.Proofs.Replacement
import TraceIndex.Span.Keys

namespace TraceIndex

namespace Span

/-- Where a key of a span stands: at an event, at a tag for its key, or at a tag for its value. -/
inductive Place
  | event (i : Nat)
  | tag (i : Nat)
  | value (i : Nat)

def Place.Before : Place → Place → Prop
  | event i, event j => i < j
  | event _, _ => True
  | _, event _ => False
  | tag i, value j => i ≤ j
  | tag i, tag j | value i, tag j | value i, value j => i < j

def Serves (endpoint : Option Endpoint) (service : String) : Prop :=
  ∃ e, endpoint = some e ∧ service = Text.lowercase e.service ∧ service ≠ ""

/-- The key that stands at a place of a span. The bytes of a tag that is text need not be text. -/
inductive Tells (s : Span) : Place → String → Prop
  | event {i : Nat} {e : Event} {service : String} (he : s.events[i]? = some e)
    (hcore : e.value ∉ coreEvents) (hservice : Serves e.endpoint service) :
    Tells s (.event i) (service ++ ":" ++ e.value)
  | tag {i : Nat} {t : Tag} {service : String} (ht : s.tags[i]? = some t)
    (hservice : Serves t.endpoint service) : Tells s (.tag i) (service ++ ":" ++ t.key)
  | value {i : Nat} {t : Tag} {service text : String} (ht : s.tags[i]? = some t)
    (hservice : Serves t.endpoint service) (hkind : t.kind = .string)
    (htext : Utf8.Replaced t.value text.toList) :
    Tells s (.value i) (service ++ ":" ++ t.key ++ ":" ++ text)

section FirstAppearances

theorem firstAppearances_concat (keys : List String) (k : String) :
    firstAppearances (keys ++ [k]) =
      if k ∈ firstAppearances keys then firstAppearances keys else firstAppearances keys ++ [k] := by
  simp only [firstAppearances, List.foldl_concat, List.mem_reverse]
  split_ifs
  · rfl
  · rw [List.reverse_cons]

theorem mem_firstAppearances {keys : List String} {k : String} :
    k ∈ firstAppearances keys ↔ k ∈ keys := by
  induction keys using List.reverseRecOn with
  | nil => rfl
  | append_singleton keys a ih =>
    rw [firstAppearances_concat, List.mem_append, List.mem_singleton, ← ih]
    split_ifs with ha
    · constructor
      · exact .inl
      · rintro (hk | rfl)
        · exact hk
        · exact ha
    · rw [List.mem_append, List.mem_singleton]

theorem firstAppearances_nodup (keys : List String) : (firstAppearances keys).Nodup := by
  induction keys using List.reverseRecOn with
  | nil => exact List.nodup_nil
  | append_singleton keys a ih =>
    rw [firstAppearances_concat]
    split_ifs with ha
    · exact ih
    · simpa [List.nodup_append] using ⟨ih, fun b hb => (ne_of_mem_of_not_mem hb ha)⟩

/-- Where keys are listed by their places, those stand first that have a place before all places of
the others. -/
theorem firstAppearances_order {α : Type} {before : α → α → Prop} {placed : List (α × String)}
    (h : placed.Pairwise fun x y => before x.1 y.1) :
    (firstAppearances (placed.map (·.2))).Pairwise fun a b =>
      ∃ p, (p, a) ∈ placed ∧ ∀ q, (q, b) ∈ placed → before p q := by
  induction placed using List.reverseRecOn with
  | nil => exact List.Pairwise.nil
  | append_singleton placed x ih =>
    obtain ⟨hplaced, -, hlast⟩ := List.pairwise_append.mp h
    have hbefore : ∀ p ∈ placed, before p.1 x.1 := by
      intro p hp
      exact hlast p hp x List.mem_cons_self
    -- A place of the last key is after all places of the keys before it.
    have hkept : (firstAppearances (placed.map (·.2))).Pairwise fun a b =>
        ∃ p, (p, a) ∈ placed ++ [x] ∧ ∀ q, (q, b) ∈ placed ++ [x] → before p q := by
      apply (ih hplaced).imp
      rintro a b ⟨p, hp, hall⟩
      refine ⟨p, List.mem_append_left _ hp, fun q hq => ?_⟩
      obtain hq | hq := List.mem_append.mp hq
      · exact hall q hq
      · rw [← List.mem_singleton.mp hq] at hbefore
        exact hbefore (p, a) hp
    rw [List.map_append, List.map_singleton, firstAppearances_concat]
    split_ifs with hx
    · exact hkept
    · refine List.pairwise_append.mpr ⟨hkept, List.pairwise_singleton _ _, ?_⟩
      intro a ha b hb
      obtain rfl := List.mem_singleton.mp hb
      obtain ⟨⟨p, a⟩, hp, rfl⟩ := List.mem_map.mp (mem_firstAppearances.mp ha)
      refine ⟨p, List.mem_append_left _ hp, fun q hq => ?_⟩
      obtain hq | hq := List.mem_append.mp hq
      · exact absurd (mem_firstAppearances.mpr (List.mem_map.mpr ⟨_, hq, rfl⟩)) hx
      · rw [← List.mem_singleton.mp hq] at hbefore
        exact hbefore (p, a) hp

end FirstAppearances

section Places

variable {s : Span} {place : Place} {key service : String}

theorem serves_iff {endpoint : Option Endpoint} :
    Serves endpoint service ↔ endpoint.bind (·.service?) = some service := by
  constructor
  · rintro ⟨e, rfl, rfl, hne⟩
    simp [Endpoint.service?, hne]
  · intro h
    obtain ⟨e, rfl, he⟩ := Option.bind_eq_some_iff.mp h
    simp only [Endpoint.service?] at he
    split_ifs at he with hempty
    obtain rfl := Option.some.inj he
    exact ⟨e, rfl, rfl, by simpa using hempty⟩

theorem eventKey?_eq_some {e : Event} :
    eventKey? e = some key ↔
      e.value ∉ coreEvents ∧ ∃ service, Serves e.endpoint service ∧
        service ++ ":" ++ e.value = key := by
  unfold eventKey?
  by_cases hcore : e.value ∈ coreEvents
  · simp [hcore]
  · simp [hcore, serves_iff, Option.bind_eq_some_iff]

def eventPlaces (x : Event × Nat) : Option (Place × String) :=
  (eventKey? x.1).map (.event x.2, ·)

def tagPlaces (x : Tag × Nat) : List (Place × String) := [.tag x.2, .value x.2].zip (tagKeys x.1)

def placed (s : Span) : List (Place × String) :=
  s.events.zipIdx.filterMap eventPlaces ++ s.tags.zipIdx.flatMap tagPlaces

theorem mem_tagPlaces {t : Tag} {i : Nat} :
    (place, key) ∈ tagPlaces (t, i) ↔ ∃ service, Serves t.endpoint service ∧
      ((place = .tag i ∧ key = service ++ ":" ++ t.key) ∨
        (t.kind = .string ∧ place = .value i ∧
          key = service ++ ":" ++ t.key ++ ":" ++ Utf8.lossy t.value)) := by
  simp only [serves_iff, tagPlaces, tagKeys]
  cases t.endpoint.bind (·.service?) with
  | none => simp
  | some service => by_cases hkind : t.kind = .string <;> simp [hkind]

theorem mem_placed : (place, key) ∈ s.placed ↔ s.Tells place key := by
  simp only [placed, List.mem_append, List.mem_filterMap, List.mem_flatMap, Prod.exists,
    List.mem_zipIdx_iff_getElem?, mem_tagPlaces, eventPlaces, Option.map_eq_some_iff,
    eventKey?_eq_some]
  constructor
  · rintro (⟨e, i, he, -, ⟨hcore, service, hservice, rfl⟩, heq⟩ |
      ⟨t, i, ht, service, hservice, ⟨rfl, rfl⟩ | ⟨hkind, rfl, rfl⟩⟩)
    · obtain ⟨rfl, rfl⟩ := Prod.mk.inj heq
      exact .event he hcore hservice
    · exact .tag ht hservice
    · exact .value ht hservice hkind (Utf8.replaced_iff.mpr (by simp [Utf8.lossy]))
  · rintro (⟨he, hcore, hservice⟩ | ⟨ht, hservice⟩ | ⟨ht, hservice, hkind, htext⟩)
    · exact .inl ⟨_, _, he, _, ⟨hcore, _, hservice, rfl⟩, rfl⟩
    · exact .inr ⟨_, _, ht, _, hservice, .inl ⟨rfl, rfl⟩⟩
    · refine .inr ⟨_, _, ht, _, hservice, .inr ⟨hkind, rfl, ?_⟩⟩
      rw [Utf8.lossy, Utf8.replaced_iff.mp htext, String.ofList_toList]

theorem tagPlaces_keys (x : Tag × Nat) : (tagPlaces x).map (·.2) = tagKeys x.1 := by
  unfold tagPlaces tagKeys
  cases x.1.endpoint.bind (·.service?) with
  | none => rfl
  | some service => by_cases hkind : x.1.kind = .string <;> simp [hkind]

theorem placed_keys (s : Span) :
    s.placed.map (·.2) = s.events.filterMap eventKey? ++ s.tags.flatMap tagKeys := by
  have hevents : (s.events.zipIdx.filterMap eventPlaces).map (·.2) =
      s.events.filterMap eventKey? := by
    have hkey : (fun x => (eventPlaces x).map (·.2)) = eventKey? ∘ Prod.fst := by
      funext x
      simp [eventPlaces, Function.comp_def]
    rw [List.map_filterMap, hkey, ← List.filterMap_map, List.zipIdx_map_fst]
  have htags : (s.tags.zipIdx.flatMap tagPlaces).map (·.2) = s.tags.flatMap tagKeys := by
    rw [List.map_flatMap, funext tagPlaces_keys, ← List.flatMap_map, List.zipIdx_map_fst]
  rw [placed, List.map_append, hevents, htags]

theorem zipIdx_order {α : Type} (l : List α) : l.zipIdx.Pairwise fun x y => x.2 < y.2 := by
  apply List.pairwise_map.mp
  rw [List.zipIdx_map_snd]
  exact List.pairwise_lt_range'

theorem place_of_eventPlaces {x : Event × Nat} {y : Place × String} (h : eventPlaces x = some y) :
    y.1 = .event x.2 := by
  obtain ⟨-, -, rfl⟩ := Option.map_eq_some_iff.mp h
  rfl

theorem place_of_tagPlaces {x : Tag × Nat} {y : Place × String} (h : y ∈ tagPlaces x) :
    y.1 = .tag x.2 ∨ y.1 = .value x.2 := by
  have hplace := (List.of_mem_zip h).1
  simpa using hplace

theorem placed_order (s : Span) : s.placed.Pairwise fun x y => x.1.Before y.1 := by
  refine List.pairwise_append.mpr ⟨?_, ?_, ?_⟩
  · apply List.pairwise_filterMap.mpr
    apply (zipIdx_order s.events).imp
    intro x x' hlt y hy y' hy'
    rw [place_of_eventPlaces hy, place_of_eventPlaces hy']
    exact hlt
  · refine List.pairwise_flatMap.mpr ⟨?_, ?_⟩
    · rintro ⟨t, i⟩ -
      unfold tagPlaces tagKeys
      cases t.endpoint.bind (·.service?) with
      | none => exact .nil
      | some service => by_cases hkind : t.kind = .string <;> simp [hkind, Place.Before]
    · apply (zipIdx_order s.tags).imp
      intro x x' hlt y hy y' hy'
      obtain h | h := place_of_tagPlaces hy <;> obtain h' | h' := place_of_tagPlaces hy' <;>
        rw [h, h']
      · exact hlt
      · exact Nat.le_of_lt hlt
      · exact hlt
      · exact hlt
  · intro y hy y' hy'
    obtain ⟨x, -, hx⟩ := List.mem_filterMap.mp hy
    obtain ⟨x', -, hx'⟩ := List.mem_flatMap.mp hy'
    rw [place_of_eventPlaces hx]
    obtain h' | h' := place_of_tagPlaces hx' <;> rw [h'] <;> trivial

theorem mem_annotationKeys : key ∈ s.annotationKeys ↔ ∃ place, s.Tells place key := by
  simp only [annotationKeys, ← placed_keys, mem_firstAppearances, List.mem_map, Prod.exists,
    mem_placed, exists_eq_right]

theorem annotationKeys_order (s : Span) :
    s.annotationKeys.Pairwise fun a b => ∃ p, s.Tells p a ∧ ∀ q, s.Tells q b → p.Before q := by
  have horder := firstAppearances_order s.placed_order
  simp only [mem_placed, placed_keys] at horder
  exact horder

theorem tells_string {i : Nat} {name value : String} {endpoint : Option Endpoint}
    (ht : s.tags[i]? = some (.string name value endpoint)) :
    s.Tells (.value i) key ↔
      ∃ service, Serves endpoint service ∧ key = service ++ ":" ++ name ++ ":" ++ value := by
  constructor
  · intro h
    cases h with
    | value ht' hservice hkind htext =>
      obtain rfl := Option.some.inj (ht.symm.trans ht')
      obtain rfl := Utf8.replaced_encode.mp htext
      exact ⟨_, hservice, rfl⟩
  · rintro ⟨service, hservice, rfl⟩
    exact .value ht hservice rfl (Utf8.replaced_encode.mpr rfl)

end Places

/-- The keys that a span is found by are those that it tells, each once, in the order of their first
places. A tag with a text as its value tells a key that ends in this text. -/
theorem annotationKeys_exact (s : Span) :
    s.annotationKeys.Nodup ∧
    (∀ key, key ∈ s.annotationKeys ↔ ∃ place, s.Tells place key) ∧
    s.annotationKeys.Pairwise (fun a b => ∃ p, s.Tells p a ∧ ∀ q, s.Tells q b → p.Before q) ∧
    ∀ i name value endpoint, s.tags[i]? = some (.string name value endpoint) →
      ∀ key, s.Tells (.value i) key ↔
        ∃ service, Serves endpoint service ∧ key = service ++ ":" ++ name ++ ":" ++ value :=
  ⟨firstAppearances_nodup _, fun _ => mem_annotationKeys, s.annotationKeys_order,
    fun _ _ _ _ ht _ => tells_string ht⟩

theorem annotationKeys_exact_hit :
    let web : Option Endpoint := some ⟨"Web", 0, none⟩
    let s : Span := ⟨1, 2, none, "get", none, none, [⟨3, clientSend, web⟩, ⟨4, "hit", web⟩],
      [⟨"hit", [0x66, 0xC3], .string, web⟩, .string "path" "/é" web]⟩
    s.tags[1]? = some (.string "path" "/é" web) ∧
    s.annotationKeys = ["web:hit", "web:hit:f\uFFFD", "web:path", "web:path:/é"] ∧
    s.annotationKeys.Nodup ∧
    (∀ key, key ∈ s.annotationKeys ↔ ∃ place, s.Tells place key) ∧
    s.annotationKeys.Pairwise (fun a b => ∃ p, s.Tells p a ∧ ∀ q, s.Tells q b → p.Before q) ∧
    ∀ key, s.Tells (.value 1) key ↔
      ∃ service, Serves web service ∧ key = service ++ ":" ++ "path" ++ ":" ++ "/é" := by
  intro web s
  have htag : s.tags[1]? = some (.string "path" "/é" web) := rfl
  obtain ⟨hnodup, hmem, horder, hstring⟩ := annotationKeys_exact s
  exact ⟨htag, by decide +kernel, hnodup, hmem, horder, hstring 1 "path" "/é" web htag⟩

end Span

end TraceIndex
