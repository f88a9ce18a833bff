import TraceIndex.Proofs.EventOrder
import TraceIndex.Proofs.Forms
import TraceIndex.Proofs.Origins

namespace TraceIndex

/-- Where two values are laid out alike, whatever follows either of them, they are the same value
and the same follows. -/
def Delimits {α : Type} (fits : α → Prop) (layOut : α → Bytes) : Prop :=
  ∀ ⦃a b⦄, fits a → fits b → ∀ ⦃r t⦄, layOut a ++ r = layOut b ++ t → a = b ∧ r = t

namespace Delimits

variable {α β : Type} {fits : α → Prop} {layOut : α → Bytes}

theorem eq_of_layOut_eq (h : Delimits fits layOut) {a b : α} (ha : fits a) (hb : fits b)
    (heq : layOut a = layOut b) : a = b :=
  (h ha hb (congrArg (· ++ []) heq)).1

theorem mono {fits' : α → Prop} (h : Delimits fits layOut) (hfits : ∀ a, fits' a → fits a) :
    Delimits fits' layOut :=
  fun _ _ ha hb => h (hfits _ ha) (hfits _ hb)

theorem comap (h : Delimits fits layOut) {make : β → α} (hmake : Function.Injective make) :
    Delimits (fun b => fits (make b)) fun b => layOut (make b) := by
  intro a b ha hb r t heq
  obtain ⟨hab, hrest⟩ := h ha hb heq
  exact ⟨hmake hab, hrest⟩

theorem little (n : Nat) : Delimits (· < Bytes.room n) (Bytes.little n) := by
  intro v w hv hw r t h
  obtain ⟨hbytes, hrest⟩ := List.append_inj h (by simp only [Bytes.length_little])
  have hmod := congrArg Bytes.ofLittle hbytes
  rw [Bytes.ofLittle_little, Bytes.ofLittle_little, Nat.mod_eq_of_lt hv, Nat.mod_eq_of_lt hw]
    at hmod
  exact ⟨hmod, hrest⟩

theorem length : Delimits (· < 0x100000000) (Bytes.little 4) := little 4

theorem seq {fits' : β → Prop} {layOut' : β → Bytes} (h : Delimits fits layOut)
    (h' : Delimits fits' layOut') :
    Delimits (fun x : α × β => fits x.1 ∧ fits' x.2) fun x => layOut x.1 ++ layOut' x.2 := by
  rintro x y ⟨hx, hx'⟩ ⟨hy, hy'⟩ r t heq
  rw [List.append_assoc, List.append_assoc] at heq
  obtain ⟨hfirst, hbehind⟩ := h hx hy heq
  obtain ⟨hsecond, hrest⟩ := h' hx' hy' hbehind
  exact ⟨Prod.ext hfirst hsecond, hrest⟩

theorem counted :
    Delimits (fun bytes : Bytes => bytes.length < 0x100000000) fun bytes =>
      Bytes.little 4 bytes.length ++ bytes := by
  intro a b ha hb r t h
  rw [List.append_assoc, List.append_assoc] at h
  obtain ⟨hlength, hbehind⟩ := length ha hb h
  exact List.append_inj hbehind hlength

theorem flatMap (h : Delimits fits layOut) {l m : List α} (hlength : l.length = m.length)
    (hl : ∀ a ∈ l, fits a) (hm : ∀ a ∈ m, fits a) {r t : Bytes}
    (heq : l.flatMap layOut ++ r = m.flatMap layOut ++ t) : l = m ∧ r = t := by
  induction l generalizing m with
  | nil =>
    obtain rfl := List.length_eq_zero_iff.mp hlength.symm
    exact ⟨rfl, heq⟩
  | cons a l ih =>
    cases m with
    | nil => cases hlength
    | cons b m =>
      rw [List.flatMap_cons, List.flatMap_cons, List.append_assoc, List.append_assoc] at heq
      obtain ⟨hab, hrest⟩ := h (hl a List.mem_cons_self) (hm b List.mem_cons_self) heq
      obtain ⟨hlm, hrest⟩ := ih (Nat.succ.inj hlength)
        (fun c hc => hl c (List.mem_cons_of_mem _ hc))
        (fun c hc => hm c (List.mem_cons_of_mem _ hc)) hrest
      exact ⟨congrArg₂ _ hab hlm, hrest⟩

theorem list (h : Delimits fits layOut) :
    Delimits (fun l : List α => l.length < 0x100000000 ∧ ∀ a ∈ l, fits a) fun l =>
      Bytes.little 4 l.length ++ l.flatMap layOut := by
  rintro l m ⟨hlength, hl⟩ ⟨hlength', hm⟩ r t heq
  rw [List.append_assoc, List.append_assoc] at heq
  obtain ⟨hsame, heq⟩ := length hlength hlength' heq
  exact h.flatMap hsame hl hm heq

theorem option (h : Delimits fits layOut) :
    Delimits (fun o : Option α => ∀ a ∈ o, fits a) fun o => o.elim [0] (1 :: layOut ·) := by
  rintro (_ | a) (_ | b) ha hb r t heq
  · exact ⟨rfl, (List.cons.inj heq).2⟩
  · exact absurd (List.cons.inj heq).1 (by decide)
  · exact absurd (List.cons.inj heq).1 (by decide)
  · obtain ⟨rfl, rfl⟩ := h (ha a rfl) (hb b rfl) (List.cons.inj heq).2
    exact ⟨rfl, rfl⟩

end Delimits

namespace Layout

/-- Four bytes hold each of the numbers. -/
def Small (lengths : List Nat) : Prop := ∀ n ∈ lengths, n < 0x100000000

theorem text_delimits : Delimits (fun s => (Utf8.encode s).length < 0x100000000) text :=
  Delimits.counted.comap Utf8.encode_injective

theorem time_delimits : Delimits (fun _ : Int64 => True) fun t =>
    Bytes.little 8 t.toUInt64.toNat := by
  have hinjective : Function.Injective fun t : Int64 => t.toUInt64.toNat := by
    intro a b h
    exact congrArg Int64.ofUInt64 (UInt64.toNat_inj.mp h)
  apply ((Delimits.little 8).comap hinjective).mono
  intro t _
  exact t.toUInt64.toNat_lt

theorem address_delimits : Delimits (fun _ : UInt32 => True) fun a => Bytes.little 4 a.toNat :=
  ((Delimits.little 4).comap fun _ _ => UInt32.toNat_inj.mp).mono fun a _ => a.toNat_lt

theorem port_delimits : Delimits (fun _ : UInt16 => True) fun p => Bytes.little 2 p.toNat :=
  ((Delimits.little 2).comap fun _ _ => UInt16.toNat_inj.mp).mono fun p _ => p.toNat_lt

theorem code_delimits : Delimits (fun _ : TagKind => True) fun kind => [kind.code] := by
  have hinjective : ∀ a b : TagKind, a.code = b.code → a = b := by
    intro a b
    cases a <;> cases b <;> decide
  intro a b _ _ r t h
  obtain ⟨hcode, hrest⟩ := List.cons.inj h
  exact ⟨hinjective a b hcode, hrest⟩

def reached (e : Endpoint) : Bytes :=
  text e.service ++ Bytes.little 4 e.ipv4.toNat ++
    e.port.elim [0] (1 :: Bytes.little 2 ·.toNat)

theorem endpoint_eq : endpoint = fun o => o.elim [0] (1 :: reached ·) := by
  funext o
  match o with
  | none | some ⟨_, _, none⟩ | some ⟨_, _, some _⟩ => rfl

theorem reached_delimits :
    Delimits (fun e => (Utf8.encode e.service).length < 0x100000000) reached := by
  have hmake : Function.Injective fun e : Endpoint => ((e.service, e.ipv4), e.port) := by
    rintro ⟨_, _, _⟩ ⟨_, _, _⟩ ⟨⟩
    rfl
  apply (((text_delimits.seq address_delimits).seq port_delimits.option).comap hmake).mono
  intro e hservice
  exact ⟨⟨hservice, trivial⟩, fun _ _ => trivial⟩

theorem endpoint_delimits : Delimits (fun e => Small (Endpoint.lengths e)) endpoint := by
  rw [endpoint_eq]
  apply reached_delimits.option.mono
  rintro _ hsmall e rfl
  exact hsmall _ (List.mem_singleton_self _)

theorem event_delimits : Delimits (fun e => Small e.lengths) event := by
  have hmake : Function.Injective fun e : Event => ((e.time, e.value), e.endpoint) := by
    rintro ⟨_, _, _⟩ ⟨_, _, _⟩ ⟨⟩
    rfl
  apply (((time_delimits.seq text_delimits).seq endpoint_delimits).comap hmake).mono
  intro e hsmall
  obtain ⟨hvalue, hendpoint⟩ := List.forall_mem_cons.mp hsmall
  exact ⟨⟨trivial, hvalue⟩, hendpoint⟩

theorem tag_delimits : Delimits (fun t => Small t.lengths) tag := by
  have hmake : Function.Injective fun t : Tag => (((t.key, t.value), t.kind), t.endpoint) := by
    rintro ⟨_, _, _, _⟩ ⟨_, _, _, _⟩ ⟨⟩
    rfl
  have hparts : tag = fun t => text t.key ++ (Bytes.little 4 t.value.length ++ t.value) ++
      [t.kind.code] ++ endpoint t.endpoint := by
    funext t
    rw [tag, List.append_assoc (text t.key)]
  rw [hparts]
  apply ((((text_delimits.seq Delimits.counted).seq code_delimits).seq
    endpoint_delimits).comap hmake).mono
  intro t hsmall
  obtain ⟨hkey, hrest⟩ := List.forall_mem_cons.mp hsmall
  obtain ⟨hvalue, hendpoint⟩ := List.forall_mem_cons.mp hrest
  exact ⟨⟨⟨hkey, hvalue⟩, trivial⟩, hendpoint⟩

/-- The number of items of a list, and every length that is written in one of them, are small. -/
def Fits {α : Type} (lengths : α → List Nat) (l : List α) : Prop :=
  l.length < 0x100000000 ∧ ∀ a ∈ l, Small (lengths a)

instance {α : Type} (lengths : α → List Nat) (l : List α) : Decidable (Fits lengths l) :=
  inferInstanceAs (Decidable (_ ∧ ∀ a ∈ l, ∀ n ∈ lengths a, _))

theorem events_eq_iff {es fs : List Event} (hes : Fits Event.lengths es)
    (hfs : Fits Event.lengths fs) : events es = events fs ↔ es = fs :=
  ⟨event_delimits.list.eq_of_layOut_eq hes hfs, congrArg events⟩

theorem tags_eq_iff {ts us : List Tag} (hts : Fits Tag.lengths ts) (hus : Fits Tag.lengths us) :
    tags ts = tags us ↔ ts = us :=
  ⟨tag_delimits.list.eq_of_layOut_eq hts hus, congrArg tags⟩

end Layout

namespace Text

theorem separator_not_mem (n : Nat) : '_' ∉ Nat.toDigits 10 n := by
  intro h
  exact absurd (isDigit_of_mem_toDigits h) (by decide)

theorem toDigits_injective : Function.Injective (Nat.toDigits 10) := by
  intro n m h
  apply Option.some.inj
  rw [← digits?_toDigits n, ← digits?_toDigits m, h]

end Text

/-- Two streams of bytes that are not the same have the same hash. -/
def Digest.Collide (a b : Bytes) : Prop := a ≠ b ∧ xxh3 a = xxh3 b

namespace Span

variable {s t : Span}

theorem toList_uniquenessKey (s : Span) :
    s.uniquenessKey.toList = Nat.toDigits 10 s.id.toNat ++
      '_' :: (Nat.toDigits 10 s.eventsHash.toNat ++ '_' :: Nat.toDigits 10 s.tagsHash.toNat) := by
  simp only [uniquenessKey, String.toList_append, Text.toList_decimal_ofNat, List.append_assoc]
  rfl

theorem uniquenessKey_eq_iff : s.uniquenessKey = t.uniquenessKey ↔
    s.id = t.id ∧ s.eventsHash = t.eventsHash ∧ s.tagsHash = t.tagsHash := by
  constructor
  · intro h
    have hchars := congrArg String.toList h
    rw [toList_uniquenessKey, toList_uniquenessKey] at hchars
    obtain ⟨hid, hhashes⟩ := Service.cut_unique (Text.separator_not_mem _)
      (Text.separator_not_mem _) hchars
    obtain ⟨hevents, htags⟩ := Service.cut_unique (Text.separator_not_mem _)
      (Text.separator_not_mem _) hhashes
    exact ⟨UInt64.toNat_inj.mp (Text.toDigits_injective hid),
      UInt64.toNat_inj.mp (Text.toDigits_injective hevents),
      UInt64.toNat_inj.mp (Text.toDigits_injective htags)⟩
  · rintro ⟨hid, hevents, htags⟩
    rw [uniquenessKey, uniquenessKey, hid, hevents, htags]

structure FitsLayout (s : Span) : Prop where
  events : Layout.Fits Event.lengths s.events
  tags : Layout.Fits Tag.lengths s.tags

theorem FitsLayout.normalize (h : s.FitsLayout) : s.normalize.FitsLayout := by
  have hperm : s.normalize.events.Perm s.events := byTime_perm s.events
  refine ⟨⟨?_, fun e he => h.events.2 e (hperm.mem_iff.mp he)⟩, h.tags⟩
  rw [hperm.length_eq]
  exact h.events.1

/-- Lists of events, and lists of tags, are laid out alike only if they are the same, and a key tells
the id and both hashes. So reports that differ in an event or in a tag are stored in rows of their
own, unless the hashes of what differs coincide. -/
theorem uniquenessKey_tells :
    (∀ es fs, Layout.Fits Event.lengths es → Layout.Fits Event.lengths fs →
      (Layout.events es = Layout.events fs ↔ es = fs)) ∧
    (∀ ts us, Layout.Fits Tag.lengths ts → Layout.Fits Tag.lengths us →
      (Layout.tags ts = Layout.tags us ↔ ts = us)) ∧
    (∀ s t : Span, s.uniquenessKey = t.uniquenessKey ↔
      s.id = t.id ∧ s.eventsHash = t.eventsHash ∧ s.tagsHash = t.tagsHash) ∧
    ∀ (w w' : Writer) (s t : Span) (st st' : Statement), s.FitsLayout → t.FitsLayout →
      s.StoredBy w st → t.StoredBy w' st' →
      (s.normalize.events ≠ t.normalize.events ∧
          ¬ Digest.Collide (Layout.events s.normalize.events) (Layout.events t.normalize.events) ∨
        s.normalize.tags ≠ t.normalize.tags ∧
          ¬ Digest.Collide (Layout.tags s.normalize.tags) (Layout.tags t.normalize.tags)) →
      st.primaryKey? ≠ st'.primaryKey? := by
  refine ⟨fun es fs => Layout.events_eq_iff, fun ts us => Layout.tags_eq_iff,
    fun s t => uniquenessKey_eq_iff, ?_⟩
  intro w w' s t st st' hs ht hst hst' hdiffer hsame
  rw [hst.primaryKey? [], hst'.primaryKey? []] at hsame
  have hkey : s.normalize.uniquenessKey = t.normalize.uniquenessKey := by
    simp only [fact, Option.some.injEq, List.cons.injEq, Cell.text.injEq] at hsame
    exact hsame.2.2.1
  obtain ⟨-, hevents, htags⟩ := uniquenessKey_eq_iff.mp hkey
  obtain ⟨hne, hapart⟩ | ⟨hne, hapart⟩ := hdiffer
  · apply hapart
    exact ⟨mt (Layout.events_eq_iff hs.normalize.events ht.normalize.events).mp hne, hevents⟩
  · apply hapart
    exact ⟨mt (Layout.tags_eq_iff hs.normalize.tags ht.normalize.tags).mp hne, htags⟩

theorem uniquenessKey_tells_boundary :
    let s : Span := ⟨1, 2, none, "get", none, none, [], [.string "ab" "c" none]⟩
    let t : Span := { s with tags := [.string "a" "bc" none] }
    (s.FitsLayout ∧ t.FitsLayout) ∧
    (Layout.tags s.tags ≠ Layout.tags t.tags ∧ s.uniquenessKey ≠ t.uniquenessKey) ∧
    ∃ st st', s.StoredBy Service.zipkin.writer st ∧ t.StoredBy Service.zipkin.writer st' ∧
      st.primaryKey? ≠ st'.primaryKey? := by
  intro s t
  obtain ⟨-, htags, hkeys, hstored⟩ := uniquenessKey_tells
  have hs : s.FitsLayout := ⟨by decide, by decide⟩
  have ht : t.FitsLayout := ⟨by decide, by decide⟩
  have differ : s.tags ≠ t.tags := by decide
  have apart : s.tagsHash ≠ t.tagsHash := by decide +kernel
  let drawn : RandomBuckets := ⟨10, by decide, .seeded 0⟩
  have own : ∀ s : Span, ∃ st, s.StoredBy Service.zipkin.writer st := by
    intro s
    exact ⟨_, _, List.mem_append_left _ (List.mem_append_left _ List.mem_cons_self), rfl, drawn, rfl⟩
  obtain ⟨st, hst⟩ := own s
  obtain ⟨st', hst'⟩ := own t
  refine ⟨⟨hs, ht⟩, ⟨?_, ?_⟩, st, st', hst, hst', ?_⟩
  · exact mt (htags _ _ hs.tags ht.tags).mp differ
  · exact mt (hkeys s t).mp fun h => apart h.2.2
  · exact hstored _ _ s t st st' hs ht hst hst' (.inr ⟨differ, fun h => apart h.2⟩)

end Span

end TraceIndex
