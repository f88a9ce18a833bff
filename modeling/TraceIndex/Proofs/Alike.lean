import Mathlib.Data.List.Forall2
import TraceIndex.Proofs.Slots

namespace TraceIndex

section Related

variable {α β : Type} {R : α → α → Prop} {read : α → Option β}

theorem mapM_congr {as bs : List α} (h : List.Forall₂ R as bs)
    (hread : ∀ {a b}, R a b → read a = read b) : as.mapM read = bs.mapM read := by
  induction h with
  | nil => rfl
  | cons hab _ ih => rw [List.mapM_cons, List.mapM_cons, hread hab, ih]

theorem bind_congr {a b : Option α} (h : Option.Rel R a b)
    (hread : ∀ {a b}, R a b → read a = read b) : a.bind read = b.bind read := by
  cases h with
  | none => rfl
  | some hab => exact hread hab

end Related

namespace Form

variable {α : Type}

/-- The readers of the form do not tell related values apart. -/
structure Respects (F : Form α) (R : α → α → Prop) : Prop where
  isNull : ∀ {a b}, R a b → F.isNull a = F.isNull b
  integer? : ∀ {a b}, R a b → F.integer? a = F.integer? b
  text? : ∀ {a b}, R a b → F.text? a = F.text? b
  list? : ∀ {a b}, R a b → Option.Rel (List.Forall₂ R) (F.list? a) (F.list? b)
  fields? : ∀ {a b}, R a b → ∀ names least, names.Nodup →
    Option.Rel (List.Forall₂ (Option.Rel R)) (F.fields? names least a) (F.fields? names least b)
  choice? : ∀ {a b}, R a b → ∀ names, F.choice? names a = F.choice? names b

variable {F : Form α} {R : α → α → Prop}

theorem Respects.word? (hF : F.Respects R) {β : Type} (low high : Int) (ofInt : Int → β) {a b : α}
    (h : R a b) : (F.between? low high a).map ofInt = (F.between? low high b).map ofInt := by
  rw [Form.between?, Form.between?, hF.integer? h]

theorem Respects.optional? (hF : F.Respects R) {β : Type} {read : α → Option β}
    (hread : ∀ {a b}, R a b → read a = read b) {a b : Option α} (h : Option.Rel R a b) :
    F.optional? read a = F.optional? read b := by
  cases h with
  | none => rfl
  | some hab => rw [Form.optional?, Form.optional?, hF.isNull hab, hread hab]

theorem Respects.items (hF : F.Respects R) {β : Type} {read : α → Option β}
    (hread : ∀ {a b}, R a b → read a = read b) {a b : α} (h : R a b) :
    (F.list? a).bind (List.mapM read) = (F.list? b).bind (List.mapM read) :=
  bind_congr (hF.list? h) fun hitems => mapM_congr hitems hread

theorem Respects.listOrEmpty? (hF : F.Respects R) {β : Type} {read : α → Option β}
    (hread : ∀ {a b}, R a b → read a = read b) {a b : Option α} (h : Option.Rel R a b) :
    F.listOrEmpty? read a = F.listOrEmpty? read b := by
  cases h with
  | none => rfl
  | some hab => exact hF.items hread hab

def SameNames (R : α → α → Prop) : List (String × α) → List (String × α) → Prop :=
  List.Forall₂ fun m n => m.1 = n.1 ∧ R m.2 n.2

theorem SameNames.once {found found' : List (String × α)} (h : SameNames R found found')
    (names : List String) : Once names found ↔ Once names found' := by
  have hnames : found.map (·.1) = found'.map (·.1) := by
    induction h with
    | nil => rfl
    | cons hm _ ih => rw [List.map_cons, List.map_cons, hm.1, ih]
  rw [Once, Once, hnames]

theorem SameNames.lookups {found found' : List (String × α)} (h : SameNames R found found')
    (names : List String) :
    List.Forall₂ (Option.Rel R) (lookups names found) (lookups names found') := by
  have hlookup (name : String) : Option.Rel R (found.lookup name) (found'.lookup name) := by
    induction h with
    | nil => exact .none
    | @cons m n _ _ hmn _ ih =>
      obtain ⟨k, v⟩ := m
      obtain ⟨l, w⟩ := n
      obtain ⟨rfl, hvw⟩ : k = l ∧ R v w := hmn
      rw [List.lookup_cons, List.lookup_cons]
      cases name == k with
      | true => exact .some hvw
      | false => exact ih
  induction names with
  | nil => exact .nil
  | cons name names ih => exact .cons (hlookup name) ih

theorem ofItems?_congr {items items' : List α} (h : List.Forall₂ R items items') (n least : Nat) :
    Option.Rel (List.Forall₂ (Option.Rel R)) (ofItems? n least items)
      (ofItems? n least items') := by
  have hslots : List.Forall₂ (Option.Rel R) (items.map some) (items'.map some) := by
    induction h with
    | nil => exact .nil
    | cons hab _ ih => exact .cons (.some hab) ih
  have hrest (k : Nat) :
      List.Forall₂ (Option.Rel R) (List.replicate k none) (List.replicate k none) := by
    induction k with
    | zero => exact .nil
    | succ k ih => exact .cons .none ih
  rw [ofItems?, ofItems?, ← h.length_eq]
  split
  · exact .some (List.rel_append hslots (hrest _))
  · exact .none

end Form

section Spans

variable {α : Type} {F : Form α} {R : α → α → Prop} {a b : α}

theorem Endpoint.read?_congr (hF : F.Respects R) (h : R a b) : read? F a = read? F b := by
  have hfields := hF.fields? h fields 3 (by decide)
  have haddress : ∀ {a b}, R a b → F.address? a = F.address? b := hF.word? _ _ _
  have hport : ∀ {a b}, R a b → F.port? a = F.port? b := hF.word? _ _ _
  unfold read?
  generalize F.fields? fields 3 a = as at hfields ⊢
  generalize F.fields? fields 3 b = bs at hfields ⊢
  obtain hslots | _ := hfields
  · rcases hslots with _ | ⟨h₁, _ | ⟨h₂, _ | ⟨h₃, _ | _⟩⟩⟩ <;> try rfl
    simp only [Option.bind_eq_bind, Option.bind_some, ← Option.bind_assoc, bind_congr h₁ hF.text?,
      bind_congr h₂ haddress, hF.optional? hport h₃]
  · rfl

theorem Event.read?_congr (hF : F.Respects R) (h : R a b) : read? F a = read? F b := by
  have hfields := hF.fields? h fields 3 (by decide)
  have htime : ∀ {a b}, R a b → F.time? a = F.time? b := hF.word? _ _ _
  unfold read?
  generalize F.fields? fields 3 a = as at hfields ⊢
  generalize F.fields? fields 3 b = bs at hfields ⊢
  obtain hslots | _ := hfields
  · rcases hslots with _ | ⟨h₁, _ | ⟨h₂, _ | ⟨h₃, _ | _⟩⟩⟩ <;> try rfl
    simp only [Option.bind_eq_bind, Option.bind_some, ← Option.bind_assoc, bind_congr h₁ htime,
      bind_congr h₂ hF.text?, hF.optional? (Endpoint.read?_congr hF) h₃]
  · rfl

theorem Tag.readValue?_congr (hF : F.Respects R) (h : R a b) :
    readValue? F a = readValue? F b :=
  hF.items (hF.word? _ _ _) h

theorem Tag.readKind?_congr (hF : F.Respects R) (h : R a b) : readKind? F a = readKind? F b := by
  rw [readKind?, readKind?, hF.choice? h]

theorem Tag.read?_congr (hF : F.Respects R) (h : R a b) : read? F a = read? F b := by
  have hfields := hF.fields? h fields 4 (by decide)
  unfold read?
  generalize F.fields? fields 4 a = as at hfields ⊢
  generalize F.fields? fields 4 b = bs at hfields ⊢
  obtain hslots | _ := hfields
  · rcases hslots with _ | ⟨h₁, _ | ⟨h₂, _ | ⟨h₃, _ | ⟨h₄, _ | _⟩⟩⟩⟩ <;> try rfl
    simp only [Option.bind_eq_bind, Option.bind_some, ← Option.bind_assoc, bind_congr h₁ hF.text?,
      bind_congr h₂ (readValue?_congr hF), bind_congr h₃ (readKind?_congr hF),
      hF.optional? (Endpoint.read?_congr hF) h₄]
  · rfl

theorem Span.read?_congr (hF : F.Respects R) (h : R a b) : read? F a = read? F b := by
  have hfields := hF.fields? h fields 6 (by decide)
  have hid : ∀ {a b}, R a b → F.id? a = F.id? b := hF.word? _ _ _
  have htime : ∀ {a b}, R a b → F.time? a = F.time? b := hF.word? _ _ _
  unfold read?
  generalize F.fields? fields 6 a = as at hfields ⊢
  generalize F.fields? fields 6 b = bs at hfields ⊢
  obtain hslots | _ := hfields
  · rcases hslots with _ | ⟨h₁, _ | ⟨h₂, _ | ⟨h₃, _ | ⟨h₄, _ | ⟨h₅, _ | ⟨h₆, _ | ⟨h₇, _ |
      ⟨h₈, _ | _⟩⟩⟩⟩⟩⟩⟩⟩ <;> try rfl
    simp only [Option.bind_eq_bind, Option.bind_some, ← Option.bind_assoc, bind_congr h₁ hid,
      bind_congr h₂ hid, hF.optional? hid h₃, bind_congr h₄ hF.text?, hF.optional? htime h₅,
      hF.optional? htime h₆, hF.listOrEmpty? (Event.read?_congr hF) h₇,
      hF.listOrEmpty? (Tag.read?_congr hF) h₈]
  · rfl

end Spans

namespace Json

inductive SameMember (R : Json → Json → Prop) : Bytes × Json → Bytes × Json → Prop
  | mk {k l v w} : unescape? k = unescape? l → R v w → SameMember R (k, v) (l, w)

/-- Values that differ at most in how their texts are spelled. -/
inductive Alike : Json → Json → Prop
  | null : Alike null null
  | bool {b} : Alike (bool b) (bool b)
  | number {literal} : Alike (number literal) (number literal)
  | string {i j} : unescape? i = unescape? j → Alike (string i) (string j)
  | array {vs ws} : List.Forall₂ Alike vs ws → Alike (array vs) (array ws)
  | object {ms ns} : List.Forall₂ (SameMember Alike) ms ns → Alike (object ms) (object ns)

theorem stringText?_congr {i j : Bytes} (h : unescape? i = unescape? j) :
    stringText? i = stringText? j := by
  rw [stringText?, stringText?, h]

theorem named?_congr {ms ns : List (Bytes × Json)} (h : List.Forall₂ (SameMember Alike) ms ns) :
    Option.Rel (Form.SameNames Alike) (ms.mapM named?) (ns.mapM named?) := by
  induction h with
  | nil => exact .some .nil
  | @cons m n ms ns hmn _ ih =>
    obtain ⟨hname, hvalue⟩ := hmn
    rw [List.mapM_cons, List.mapM_cons, named?, named?, stringText?_congr hname]
    generalize ms.mapM named? = found at ih ⊢
    generalize ns.mapM named? = found' at ih ⊢
    cases stringText? _ with
    | none => exact .none
    | some name =>
      cases ih with
      | some hrest => exact .some (.cons ⟨rfl, hvalue⟩ hrest)
      | none => exact .none

theorem respects : form.Respects Alike where
  isNull h := by cases h <;> rfl
  integer? h := by cases h <;> rfl
  text? h := by
    cases h with
    | string h => exact stringText?_congr h
    | _ => rfl
  list? h := by
    cases h with
    | array h => exact .some h
    | _ => exact .none
  fields? h names least hnodup := by
    cases h with
    | @object ms ns h =>
      change Option.Rel _ (fields? names least (object ms)) (fields? names least (object ns))
      have hfound := named?_congr h
      rw [fields?_object hnodup, fields?_object hnodup]
      generalize ms.mapM named? = found at hfound ⊢
      generalize ns.mapM named? = found' at hfound ⊢
      cases hfound with
      | some hfound =>
        simp only [Option.bind_some, hfound.once names]
        split
        · exact .some (hfound.lookups names)
        · exact .none
      | none => exact .none
    | array h => exact Form.ofItems?_congr h _ _
    | _ => exact .none
  choice? h names := by
    cases h with
    | string h =>
      change (stringText? _).bind _ = (stringText? _).bind _
      rw [stringText?_congr h]
    | object h =>
      rcases h with _ | ⟨⟨hname, hvalue⟩, _ | _⟩
      · rfl
      · cases hvalue with
        | null =>
          change (stringText? _).bind _ = (stringText? _).bind _
          rw [stringText?_congr hname]
        | _ => rfl
      · cases hvalue <;> rfl
    | _ => rfl

end Json

end TraceIndex
