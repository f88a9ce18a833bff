import Mathlib.Data.List.Nodup
import TraceIndex.Codec
import TraceIndex.Proofs.EventOrder
import TraceIndex.Proofs.JsonReading
import TraceIndex.Proofs.PackedReading
import TraceIndex.Span.Normal

namespace TraceIndex

namespace Form

variable {α : Type}

theorem idxOf?_of_nodup {done rest : List (String × α)} {m : String × α}
    (h : ((done ++ m :: rest).map (·.1)).Nodup) :
    ((done ++ m :: rest).map (·.1)).idxOf? m.1 = some done.length := by
  have hlt : done.length < ((done ++ m :: rest).map (·.1)).length := by simp
  have hget : ((done ++ m :: rest).map (·.1))[done.length] = m.1 := by simp
  refine List.idxOf?_eq_some_iff.mpr ⟨hlt, hget, fun j hj heq => ?_⟩
  have hsame := (List.Nodup.getElem_inj_iff h).mp (heq.trans hget.symm)
  omega

theorem foldlM_place {done rest : List (String × α)} (h : ((done ++ rest).map (·.1)).Nodup) :
    (rest.map fun m => (((done ++ rest).map (·.1)).idxOf? m.1, m.2)).foldlM place
        (done.map (some ·.2) ++ List.replicate rest.length none) =
      some ((done ++ rest).map (some ·.2)) := by
  induction rest generalizing done with
  | nil => simp
  | cons m rest ih =>
    have hindex := idxOf?_of_nodup h
    have hplace : place (done.map (some ·.2) ++ List.replicate (m :: rest).length none)
        (some done.length, m.2) =
          some ((done ++ [m]).map (some ·.2) ++ List.replicate rest.length none) := by
      simp [place, List.replicate_succ]
    have hsplit : done ++ m :: rest = done ++ [m] ++ rest := by simp
    rw [List.map_cons, List.foldlM_cons, hindex, hplace]
    rw [hsplit] at h ⊢
    exact ih h

theorem ofMembers?_written {β : Type} {members : List (String × α)} (write : String × α → β)
    {read : β → Option (Option Nat × α)}
    (hread : ∀ m, read (write m) = some ((members.map (·.1)).idxOf? m.1, m.2))
    (h : (members.map (·.1)).Nodup) :
    (do ofMembers? (members.map (·.1)).length (← (members.map write).mapM read)) =
      some (members.map (some ·.2)) := by
  have hmembers : (members.map write).mapM read =
      some (members.map fun m => ((members.map (·.1)).idxOf? m.1, m.2)) := by
    rw [List.mapM_map]
    exact mapM_eq_some fun m _ => hread m
  rw [hmembers, List.length_map]
  exact @foldlM_place α [] members h

/-- What is written in the form is read back from it. Integers are those that a word with or
without a sign holds. -/
structure Lawful (F : Form α) : Prop where
  integer : ∀ n : Int, -0x8000000000000000 ≤ n → n < 0x10000000000000000 →
    F.integer? (F.integer n) = some n
  text : ∀ s, F.text? (F.text s) = some s
  list : ∀ items, F.list? (F.list items) = some items
  fields : ∀ members least, (members.map (·.1)).Nodup →
    F.fields? (members.map (·.1)) least (F.record members) = some (members.map (some ·.2))
  choice : ∀ names name, F.choice? names (F.text name) = names.idxOf? name
  null : F.isNull F.null = true
  integer_some : ∀ n, F.isNull (F.integer n) = false
  record_some : ∀ members, F.isNull (F.record members) = false

variable {F : Form α}

theorem Lawful.fields?_record (hF : F.Lawful) {names : List String} {members : List (String × α)}
    (hnames : members.map (·.1) = names) (hnodup : names.Nodup) (least : Nat) :
    F.fields? names least (F.record members) = some (members.map (some ·.2)) := by
  subst hnames
  exact hF.fields members least hnodup

theorem Lawful.between? (hF : F.Lawful) {low high n : Int} (hlow : low ≤ n) (hhigh : n < high)
    (hleast : -0x8000000000000000 ≤ low) (hmost : high ≤ 0x10000000000000000) :
    F.between? low high (F.integer n) = some n := by
  rw [Form.between?, hF.integer n (by omega) (by omega)]
  simp [Option.filter, hlow, hhigh]

theorem Lawful.word? (hF : F.Lawful) {β : Type} {size : Nat} {toNat : β → Nat} {ofInt : Int → β}
    (hback : ∀ b, ofInt (toNat b) = b) (hlt : ∀ b, toNat b < size)
    (hsize : size ≤ 0x10000000000000000) (b : β) :
    (F.between? 0 size (F.integer (toNat b))).map ofInt = some b := by
  have hread := hF.between? (Int.natCast_nonneg (toNat b)) (Int.ofNat_lt.mpr (hlt b)) (by decide)
    (Int.ofNat_le.mpr hsize)
  rw [hread, Option.map_some, hback]

theorem Lawful.byte? (hF : F.Lawful) : ∀ b : UInt8, F.byte? (F.integer b.toNat) = some b := by
  refine hF.word? (fun b => UInt8.toNat_inj.mp ?_) UInt8.toNat_lt (by decide)
  have hlt := b.toNat_lt
  rw [UInt8.ofInt, UInt8.toNat_ofNat']
  omega

theorem Lawful.port? (hF : F.Lawful) : ∀ p : UInt16, F.port? (F.integer p.toNat) = some p := by
  refine hF.word? (fun p => UInt16.toNat_inj.mp ?_) UInt16.toNat_lt (by decide)
  have hlt := p.toNat_lt
  rw [UInt16.ofInt, UInt16.toNat_ofNat']
  omega

theorem Lawful.address? (hF : F.Lawful) :
    ∀ a : UInt32, F.address? (F.integer a.toNat) = some a := by
  refine hF.word? (fun a => UInt32.toNat_inj.mp ?_) UInt32.toNat_lt (by decide)
  have hlt := a.toNat_lt
  rw [UInt32.ofInt, UInt32.toNat_ofNat']
  omega

theorem Lawful.id? (hF : F.Lawful) : ∀ n : UInt64, F.id? (F.id n) = some n := by
  refine hF.word? (fun n => UInt64.toNat_inj.mp ?_) UInt64.toNat_lt (by decide)
  have hlt := n.toNat_lt
  rw [UInt64.ofInt, UInt64.toNat_ofNat']
  omega

theorem Lawful.time? (hF : F.Lawful) (n : Int64) : F.time? (F.time n) = some n := by
  have hread := hF.between? n.le_toInt n.toInt_lt (by decide) (by decide)
  rw [Form.time?, Form.time]
  exact (congrArg _ hread).trans (congrArg some (Int64.ofInt_toInt n))

theorem optional?_orNull (hF : F.Lawful) {β : Type} {read : α → Option β} {write : β → α}
    (hsome : ∀ b, F.isNull (write b) = false) (h : ∀ b, read (write b) = some b) (b : Option β) :
    F.optional? read (some (F.orNull write b)) = some b := by
  cases b with
  | none => simp [optional?, orNull, hF.null]
  | some b => simp [optional?, orNull, hsome b, h b]

theorem listOrEmpty?_list (hF : F.Lawful) {β : Type} {read : α → Option β} {write : β → α}
    (h : ∀ b, read (write b) = some b) (bs : List β) :
    F.listOrEmpty? read (some (F.list (bs.map write))) = some bs := by
  rw [listOrEmpty?, hF.list]
  exact mapM_written fun b _ => h b

end Form

section Spans

variable {α : Type} {F : Form α}

theorem Endpoint.read?_write (hF : F.Lawful) (e : Endpoint) : read? F (e.write F) = some e := by
  have hfields : F.fields? fields 3 (e.write F) =
      some [some (F.text e.service), some (F.integer e.ipv4.toNat),
        some (F.orNull (fun p => F.integer p.toNat) e.port)] :=
    hF.fields?_record (by rfl) (by decide) 3
  have hport := Form.optional?_orNull hF (fun p : UInt16 => hF.integer_some p.toNat) hF.port? e.port
  rw [read?, hfields]
  simp only [Option.bind_eq_bind, Option.bind_some, Option.pure_def, hF.text, hF.address?, hport]

theorem Endpoint.optional?_write (hF : F.Lawful) (e : Option Endpoint) :
    F.optional? (read? F) (some (F.orNull (write F) e)) = some e :=
  Form.optional?_orNull hF (fun _ => hF.record_some _) (read?_write hF) e

theorem Event.read?_write (hF : F.Lawful) (e : Event) : read? F (e.write F) = some e := by
  have hfields : F.fields? fields 3 (e.write F) =
      some [some (F.time e.time), some (F.text e.value),
        some (F.orNull (Endpoint.write F) e.endpoint)] :=
    hF.fields?_record (by rfl) (by decide) 3
  rw [read?, hfields]
  simp only [Option.bind_eq_bind, Option.bind_some, Option.pure_def, hF.text, hF.time?,
    Endpoint.optional?_write hF]

theorem Tag.readValue?_writeValue (hF : F.Lawful) (bytes : Bytes) :
    readValue? F (writeValue F bytes) = some bytes := by
  rw [readValue?, writeValue, hF.list]
  exact mapM_written fun b _ => hF.byte? b

theorem Tag.readKind?_text (hF : F.Lawful) (kind : TagKind) :
    readKind? F (F.text kind.name) = some kind := by
  rw [readKind?, hF.choice]
  cases kind <;> rfl

theorem Tag.read?_write (hF : F.Lawful) (t : Tag) : read? F (t.write F) = some t := by
  have hfields : F.fields? fields 4 (t.write F) =
      some [some (F.text t.key), some (writeValue F t.value), some (F.text t.kind.name),
        some (F.orNull (Endpoint.write F) t.endpoint)] :=
    hF.fields?_record (by rfl) (by decide) 4
  rw [read?, hfields]
  simp only [Option.bind_eq_bind, Option.bind_some, Option.pure_def, hF.text,
    readValue?_writeValue hF, readKind?_text hF, Endpoint.optional?_write hF]

theorem Span.read?_write (hF : F.Lawful) (s : Span) : read? F (s.write F) = some s := by
  have hfields : F.fields? fields 6 (s.write F) =
      some [some (F.id s.traceId), some (F.id s.id), some (F.orNull F.id s.parentId),
        some (F.text s.name), some (F.orNull F.time s.timestamp),
        some (F.orNull F.time s.duration), some (F.list (s.events.map (Event.write F))),
        some (F.list (s.tags.map (Tag.write F)))] :=
    hF.fields?_record (by rfl) (by decide) 6
  have hid : ∀ n, F.optional? F.id? (some (F.orNull F.id n)) = some n :=
    Form.optional?_orNull hF (fun n => hF.integer_some n.toNat) hF.id?
  have htime : ∀ n, F.optional? F.time? (some (F.orNull F.time n)) = some n :=
    Form.optional?_orNull hF (fun n => hF.integer_some n.toInt) hF.time?
  have hevents := Form.listOrEmpty?_list hF (Event.read?_write hF)
  have htags := Form.listOrEmpty?_list hF (Tag.read?_write hF)
  rw [read?, hfields]
  simp only [Option.bind_eq_bind, Option.bind_some, Option.pure_def, hF.id?, hF.text, hid, htime,
    hevents, htags]

end Spans

def Endpoint.lengths (e : Option Endpoint) : List Nat :=
  e.toList.map fun e => (Utf8.encode e.service).length

def Event.lengths (e : Event) : List Nat :=
  (Utf8.encode e.value).length :: Endpoint.lengths e.endpoint

def Tag.lengths (t : Tag) : List Nat :=
  (Utf8.encode t.key).length :: t.value.length :: Endpoint.lengths t.endpoint

def Span.lengths (s : Span) : List Nat :=
  (Utf8.encode s.name).length :: s.events.length :: s.tags.length ::
    (s.events.flatMap Event.lengths ++ s.tags.flatMap Tag.lengths)

/-- A property of values of some depth that nulls, integers and fitting texts have, and that fitting
lists and records have of values that have it. -/
structure Form.Carries {α : Type} (F : Form α) (fits : Nat → Prop) (P : Nat → α → Prop) :
    Prop where
  small : ∀ n < 0x20, fits n
  null : ∀ depth, P depth F.null
  integer : ∀ depth n, P depth (F.integer n)
  text : ∀ depth s, fits (Utf8.encode s).length → P depth (F.text s)
  list : ∀ depth items, fits items.length → (∀ a ∈ items, P depth a) →
    P (depth + 1) (F.list items)
  record : ∀ depth members, fits members.length →
    (∀ m ∈ members, fits (Utf8.encode m.1).length) → (∀ m ∈ members, P depth m.2) →
    P (depth + 1) (F.record members)

namespace Form.Carries

variable {α : Type} {F : Form α} {fits : Nat → Prop} {P : Nat → α → Prop}

theorem fields (h : F.Carries fits P) {depth : Nat} {names : List String}
    {members : List (String × α)} (hnames : members.map (·.1) = names)
    (hshort : names.length < 0x20 ∧ ∀ name ∈ names, (Utf8.encode name).length < 0x20)
    (hP : ∀ m ∈ members, P depth m.2) : P (depth + 1) (F.record members) := by
  subst hnames
  refine h.record depth members (h.small _ ?_) (fun m hm => h.small _ ?_) hP
  · simpa using hshort.1
  · exact hshort.2 m.1 (List.mem_map_of_mem hm)

theorem orNull (h : F.Carries fits P) {depth : Nat} {β : Type} {write : β → α} (o : Option β)
    (hP : ∀ b ∈ o, P depth (write b)) : P depth (F.orNull write o) := by
  cases o with
  | none => exact h.null depth
  | some b => exact hP b rfl

theorem endpoint (h : F.Carries fits P) (o : Option Endpoint)
    (hfits : ∀ n ∈ Endpoint.lengths o, fits n) : P 1 (F.orNull (Endpoint.write F) o) := by
  apply h.orNull
  rintro e rfl
  have hservice : fits (Utf8.encode e.service).length := hfits _ (by simp [Endpoint.lengths])
  refine h.fields (show _ = Endpoint.fields from rfl) (by decide) ?_
  simp only [List.forall_mem_cons]
  exact ⟨h.text 0 _ hservice, h.integer 0 _, h.orNull _ fun _ _ => h.integer 0 _, by simp⟩

theorem event (h : F.Carries fits P) {e : Event} (hfits : ∀ n ∈ e.lengths, fits n) :
    P 2 (e.write F) := by
  obtain ⟨hvalue, hendpoint⟩ := List.forall_mem_cons.mp hfits
  refine h.fields (show _ = Event.fields from rfl) (by decide) ?_
  simp only [List.forall_mem_cons]
  exact ⟨h.integer 1 _, h.text 1 _ hvalue, h.endpoint _ hendpoint, by simp⟩

theorem tag (h : F.Carries fits P) {t : Tag} (hfits : ∀ n ∈ t.lengths, fits n) :
    P 2 (t.write F) := by
  obtain ⟨hkey, hfits⟩ := List.forall_mem_cons.mp hfits
  obtain ⟨hvalue, hendpoint⟩ := List.forall_mem_cons.mp hfits
  have hkind : (Utf8.encode t.kind.name).length < 0x20 := by
    cases t.kind <;> decide
  have hbytes : P 1 (Tag.writeValue F t.value) := by
    refine h.list 0 _ (by rwa [List.length_map]) ?_
    intro a ha
    obtain ⟨b, -, rfl⟩ := List.mem_map.mp ha
    exact h.integer 0 _
  refine h.fields (show _ = Tag.fields from rfl) (by decide) ?_
  simp only [List.forall_mem_cons]
  exact ⟨h.text 1 _ hkey, hbytes, h.text 1 _ (h.small _ hkind), h.endpoint _ hendpoint, by simp⟩

theorem span (h : F.Carries fits P) {s : Span} (hfits : ∀ n ∈ s.lengths, fits n) :
    P 4 (s.write F) := by
  obtain ⟨hname, hfits⟩ := List.forall_mem_cons.mp hfits
  obtain ⟨hevents, hfits⟩ := List.forall_mem_cons.mp hfits
  obtain ⟨htags, hfits⟩ := List.forall_mem_cons.mp hfits
  obtain ⟨hevent, htag⟩ := List.forall_mem_append.mp hfits
  have heventList : P 3 (F.list (s.events.map (Event.write F))) := by
    refine h.list 2 _ (by rwa [List.length_map]) ?_
    intro a ha
    obtain ⟨e, he, rfl⟩ := List.mem_map.mp ha
    exact h.event fun n hn => hevent n (List.mem_flatMap_of_mem he hn)
  have htagList : P 3 (F.list (s.tags.map (Tag.write F))) := by
    refine h.list 2 _ (by rwa [List.length_map]) ?_
    intro a ha
    obtain ⟨t, ht, rfl⟩ := List.mem_map.mp ha
    exact h.tag fun n hn => htag n (List.mem_flatMap_of_mem ht hn)
  refine h.fields (show _ = Span.fields from rfl) (by decide) ?_
  simp only [List.forall_mem_cons]
  exact ⟨h.integer 3 _, h.integer 3 _, h.orNull _ fun _ _ => h.integer 3 _, h.text 3 _ hname,
    h.orNull _ fun _ _ => h.integer 3 _, h.orNull _ fun _ _ => h.integer 3 _, heventList, htagList,
    by simp⟩

end Form.Carries

namespace Json

theorem lawful : form.Lawful where
  integer n _ _ := integerOf?_decimal n
  text := stringText?_escape
  list _ := rfl
  fields members least h := by
    refine Form.ofMembers?_written (fun m => (escape m.1, m.2)) (fun m => ?_) h
    rw [member?, stringText?_escape]
    rfl
  choice names name := by
    change (stringText? (escape name)).bind _ = _
    rw [stringText?_escape]
    rfl
  null := rfl
  integer_some _ := rfl
  record_some _ := rfl

theorem carries : form.Carries (fun _ => True) fun _ => Reads where
  small _ _ := trivial
  null _ := reads_null
  integer _ := reads_integer
  text _ s _ := reads_text s
  list _ _ _ := reads_list
  record _ _ _ _ := reads_record

end Json

namespace Packed

theorem integer?_integer {n : Int} (low : -0x8000000000000000 ≤ n)
    (high : n < 0x10000000000000000) : integer? (integer n) = some n := by
  unfold integer
  split
  · have hn : ((UInt64.ofInt n).toNat : Int) = n := by
      rw [UInt64.ofInt, UInt64.toNat_ofNat']
      omega
    rw [integer?, hn]
  · rw [integer?, Int64.toInt_ofInt_of_le low (by omega)]

theorem named?_string (names : List String) (name : String) :
    named? names (string name) = some (names.idxOf? name) := by
  have hindex : (names.map Utf8.encode).idxOf? (Utf8.encode name) = names.idxOf? name := by
    induction names with
    | nil => rfl
    | cons first names ih =>
      simp only [List.map_cons, List.idxOf?_cons, ih, beq_iff_eq, Utf8.encode_injective.eq_iff]
  rw [string, named?, hindex]

theorem lawful : form.Lawful where
  integer _ := integer?_integer
  text := Utf8.decode?_encode
  list _ := rfl
  fields members least h := by
    refine Form.ofMembers?_written (fun m => (string m.1, m.2)) (fun m => ?_) h
    rw [member?, named?_string]
    rfl
  choice names name := by
    change (named? names (string name)).join = _
    rw [named?_string]
    rfl
  null := rfl
  integer_some n := by
    change isNull (integer n) = false
    unfold integer
    split <;> rfl
  record_some _ := rfl

theorem carries : form.Carries (· < 0x100000000) Reads where
  small n hn := Nat.lt_trans hn (by decide)
  null := reads_null
  integer := reads_integer
  text depth _ := reads_text depth
  list _ _ := reads_list
  record _ _ := reads_record

end Packed

namespace Span

def Short (s : Span) : Prop := ∀ n ∈ s.lengths, n < 0x100000000

instance (s : Span) : Decidable s.Short := inferInstanceAs (Decidable (∀ n ∈ s.lengths, _))

theorem lengths_normalize (s : Span) {n : Nat} (h : n ∈ s.normalize.lengths) : n ∈ s.lengths := by
  have hperm := byTime_perm s.events
  simpa only [lengths, normalize, List.mem_cons, List.mem_append, List.mem_flatMap, hperm.length_eq,
    hperm.mem_iff] using h

theorem Short.normalize {s : Span} (h : s.Short) : s.normalize.Short :=
  fun n hn => h n (s.lengths_normalize hn)

end Span

namespace Codec

variable {α : Type} {F : Form α} {print : α → Bytes} {parse? : Bytes → Option α} {s : Span}
  {bytes : Bytes}

/-- A codec decodes what it encodes if the written span is parsed as it was, by a lawful form. -/
theorem ofForm_decode (name : String) (hF : F.Lawful)
    (hparse : parse? (print (s.write F)) = some (s.write F))
    (h : (ofForm name F print parse?).encode s = .ok bytes) :
    (ofForm name F print parse?).decode bytes = .ok s := by
  obtain rfl : print (s.write F) = bytes := Except.ok.inj h
  have hread : (parse? (print (s.write F))).bind (Span.read? F) = some s := by
    rw [hparse, Option.bind_some, Span.read?_write hF]
  exact congrArg (orFailure name) hread

theorem json_decode (h : json.encode s = .ok bytes) : json.decode bytes = .ok s :=
  ofForm_decode "json" Json.lawful (Json.carries.span fun _ _ => trivial).parse? h

theorem msgpack_decode (hshort : s.Short) (h : msgpack.encode s = .ok bytes) :
    msgpack.decode bytes = .ok s :=
  ofForm_decode "msgpack" Packed.lawful ((Packed.carries.span hshort).parse? (by decide)) h

end Codec

end TraceIndex
