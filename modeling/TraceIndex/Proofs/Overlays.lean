import Mathlib.Data.List.Nodup
import TraceIndex.Proofs.Documents
import TraceIndex.Settings.Document

namespace TraceIndex.Settings

open Toml

namespace Field

theorem ofName?_name (f : Field) : ofName? f.name = some f := by
  cases f <;> rfl

theorem mem_all (f : Field) : f ∈ all := by
  cases f <;> decide

theorem mem_names_of_ofName? {name : String} {f : Field} (h : ofName? name = some f) :
    name ∈ all.map (·.name) := by
  have hname : f.name = name := by simpa using List.find?_some h
  exact hname ▸ List.mem_map_of_mem (mem_all f)

theorem bounds_get (s : Settings) (f : Field) : f.bounds.1 ≤ s.get f ∧ s.get f < f.bounds.2 := by
  cases f with
  | bucketCount => exact ⟨Int.natCast_nonneg _, Int.ofNat_lt.mpr s.bucketCount.toNat_lt⟩
  | spanTtl => exact ⟨Int.natCast_nonneg _, Int.ofNat_lt.mpr s.spanTtl.toNat_lt⟩
  | indexTtl => exact ⟨Int.natCast_nonneg _, Int.ofNat_lt.mpr s.indexTtl.toNat_lt⟩
  | dedupMillis => exact ⟨Int.natCast_nonneg _, Int.ofNat_lt.mpr s.dedupMillis.toNat_lt⟩
  | keyLimit => exact ⟨Int.natCast_nonneg _, Int.ofNat_lt.mpr s.keyLimit.toNat_lt⟩
  | durationWindow => exact ⟨s.durationWindow.le_toInt, s.durationWindow.toInt_lt⟩

end Field

theorem eq_of_get {s t : Settings} (h : ∀ f, s.get f = t.get f) : s = t := by
  cases s
  cases t
  simp only [mk.injEq]
  refine ⟨UInt32.toNat_inj.mp ?_, UInt32.toNat_inj.mp ?_, UInt32.toNat_inj.mp ?_,
    UInt64.toNat_inj.mp ?_, UInt64.toNat_inj.mp ?_, Int64.toInt_inj.mp (h .durationWindow)⟩
  · exact Int.ofNat_inj.mp (h .bucketCount)
  · exact Int.ofNat_inj.mp (h .spanTtl)
  · exact Int.ofNat_inj.mp (h .indexTtl)
  · exact Int.ofNat_inj.mp (h .dedupMillis)
  · exact Int.ofNat_inj.mp (h .keyLimit)

theorem toNat_ofInt32 {n : Int} (hlow : 0 ≤ n) (hhigh : n < UInt32.size) :
    ((UInt32.ofInt n).toNat : Int) = n := by
  change n < 0x100000000 at hhigh
  rw [UInt32.ofInt, UInt32.toNat_ofNat']
  omega

theorem toNat_ofInt64 {n : Int} (hlow : 0 ≤ n) (hhigh : n < UInt64.size) :
    ((UInt64.ofInt n).toNat : Int) = n := by
  change n < 0x10000000000000000 at hhigh
  rw [UInt64.ofInt, UInt64.toNat_ofNat']
  omega

theorem set?_of_bounds (s : Settings) {f : Field} {n : Int} (hlow : f.bounds.1 ≤ n)
    (hhigh : n < f.bounds.2) :
    ∃ t, s.set? f n = some t ∧ ∀ g, t.get g = if g = f then n else s.get g := by
  refine ⟨_, if_pos ⟨hlow, hhigh⟩, fun g => ?_⟩
  cases f with
  | bucketCount =>
    have hn := toNat_ofInt32 hlow hhigh
    cases g <;> first | exact hn | rfl
  | spanTtl =>
    have hn := toNat_ofInt32 hlow hhigh
    cases g <;> first | exact hn | rfl
  | indexTtl =>
    have hn := toNat_ofInt32 hlow hhigh
    cases g <;> first | exact hn | rfl
  | dedupMillis =>
    have hn := toNat_ofInt64 hlow hhigh
    cases g <;> first | exact hn | rfl
  | keyLimit =>
    have hn := toNat_ofInt64 hlow hhigh
    cases g <;> first | exact hn | rfl
  | durationWindow =>
    have hn : (Int64.ofInt n).toInt = n := Int64.toInt_ofInt_of_le hlow hhigh
    cases g <;> first | exact hn | rfl

def named (pairs : List (Field × Int)) : List (String × Int) := pairs.map fun p => (p.1.name, p.2)

/-- The settings that have the values of some fields, and are as others in all else. -/
def Overwrites (s t : Settings) (pairs : List (Field × Int)) : Prop :=
  ∀ f, t.get f = (pairs.lookup f).getD (s.get f)

/-- A value that the field's type and the language's integers hold. -/
def Fits (p : Field × Int) : Prop :=
  p.1.bounds.1 ≤ p.2 ∧ p.2 < p.1.bounds.2 ∧ p.2 < 0x8000000000000000

theorem foldlM_overlay? {pairs : List (Field × Int)} (hnodup : (pairs.map (·.1)).Nodup)
    (hfits : ∀ p ∈ pairs, Fits p) (s : Settings) :
    ∃ t, (named pairs).foldlM overlay? s = some t ∧ Overwrites s t pairs := by
  induction pairs generalizing s with
  | nil => exact ⟨s, rfl, fun f => rfl⟩
  | cons p pairs ih =>
    obtain ⟨f, n⟩ := p
    obtain ⟨⟨hlow, hhigh, -⟩, hfits⟩ := List.forall_mem_cons.mp hfits
    obtain ⟨hf, hnodup⟩ := List.nodup_cons.mp hnodup
    obtain ⟨u, hset, hget⟩ := s.set?_of_bounds hlow hhigh
    obtain ⟨t, hfold, ht⟩ := ih hnodup hfits u
    refine ⟨t, ?_, fun g => ?_⟩
    · have hstep : overlay? s (f.name, n) = some u := by
        rw [overlay?, f.ofName?_name]
        exact hset
      rw [named, List.map_cons, List.foldlM_cons, hstep]
      exact hfold
    · rw [ht g, hget g]
      by_cases hg : g = f
      · subst hg
        have hnone : pairs.lookup g = none :=
          List.lookup_eq_none_iff.mpr fun q hq =>
            bne_iff_ne.mpr fun hgq => hf (List.mem_map.mpr ⟨q, hq, hgq.symm⟩)
        rw [hnone, List.lookup_cons_self, if_pos rfl]
        rfl
      · have hne : (g == f) = false := by simpa using hg
        rw [List.lookup_cons, hne, if_neg hg]

theorem mem_names_of_foldlM {pairs : List (String × Int)} {s t : Settings}
    (h : pairs.foldlM overlay? s = some t) : ∀ p ∈ pairs, p.1 ∈ Field.all.map (·.name) := by
  induction pairs generalizing s with
  | nil => rintro _ ⟨⟩
  | cons p pairs ih =>
    rw [List.foldlM_cons] at h
    obtain ⟨u, hu, h⟩ := Option.bind_eq_some_iff.mp h
    obtain ⟨f, hf, -⟩ := Option.bind_eq_some_iff.mp hu
    exact List.forall_mem_cons.mpr ⟨Field.mem_names_of_ofName? hf, ih h⟩

theorem nodup_named {pairs : List (Field × Int)} (h : (pairs.map (·.1)).Nodup) :
    ((named pairs).map (·.1)).Nodup := by
  have hnames : (named pairs).map (·.1) = (pairs.map (·.1)).map Field.name := by
    simp only [named, List.map_map]
    rfl
  rw [hnames]
  refine h.map fun f g hfg => ?_
  have hofName := congrArg Field.ofName? hfg
  rw [f.ofName?_name, g.ofName?_name] at hofName
  exact Option.some.inj hofName

theorem Fits.isInteger {p : Field × Int} (h : Fits p) : isInteger p.2 := by
  obtain ⟨hlow, -, hhigh⟩ := h
  have hbound : -0x8000000000000000 ≤ p.1.bounds.1 := by cases p.1 <;> decide
  have hn : -0x8000000000000000 ≤ p.2 := Int.le_trans hbound hlow
  simp only [Toml.isInteger, Bool.and_eq_true, decide_eq_true_eq]
  exact ⟨hn, hhigh⟩

theorem isInteger_named {pairs : List (Field × Int)} (h : ∀ p ∈ pairs, Fits p) :
    ∀ p ∈ named pairs, isInteger p.2 :=
  List.forall_mem_map.mpr fun p hp => (h p hp).isInteger

/-- A document of known keys puts their values over the defaults. -/
theorem ofText_document {text : String} {pairs : List (Field × Int)}
    (hnodup : (pairs.map (·.1)).Nodup) (hfits : ∀ p ∈ pairs, Fits p)
    (htext : Document text.toList (named pairs)) :
    ∃ s, Overwrites {} s pairs ∧ ofText text = s.validate := by
  obtain ⟨s, hfold, hs⟩ := foldlM_overlay? hnodup hfits {}
  have hparse : parse? text.toList = some s := by
    rw [parse?, htext.read (isInteger_named hfits)]
    exact (if_pos (nodup_named hnodup)).trans hfold
  refine ⟨s, hs, ?_⟩
  rw [ofText, hparse]

def Refused (text : String) : Prop :=
  ∃ problem message, ofText text = .error problem ∧ problem.failure = .config message

/-- The settings are read from the text if they are valid, and refused if not. -/
def Gives (text : String) (s : Settings) : Prop :=
  (s.validate = .ok s → ofText text = .ok s) ∧ (s.validate ≠ .ok s → Refused text)

theorem validate_cases (s : Settings) :
    s.validate = .ok s ∨ ∃ message, s.validate = .error (.outOfRange message) := by
  unfold validate
  repeat' split
  · exact .inr ⟨_, rfl⟩
  · exact .inr ⟨_, rfl⟩
  · exact .inr ⟨_, rfl⟩
  · exact .inr ⟨_, rfl⟩
  · exact .inl rfl

theorem gives_of_ofText {text : String} {s : Settings} (h : ofText text = s.validate) :
    Gives text s := by
  refine ⟨fun hvalid => h.trans hvalid, fun hinvalid => ?_⟩
  obtain hvalid | ⟨message, hmessage⟩ := s.validate_cases
  · exact absurd hvalid hinvalid
  · exact ⟨_, _, h.trans hmessage, rfl⟩

def assignments (s : Settings) : List (Field × Int) := Field.all.map fun f => (f, s.get f)

theorem eq_of_overwrites {s t u : Settings} (h : Overwrites t u s.assignments) : u = s := by
  have hlookup : ∀ f, s.assignments.lookup f = some (s.get f) := fun f => by cases f <;> rfl
  refine eq_of_get fun f => ?_
  rw [h f, hlookup f]
  rfl

def Writable (s : Settings) : Prop :=
  s.dedupMillis.toNat ≤ 0x7FFFFFFFFFFFFFFF ∧ s.keyLimit.toNat ≤ 0x7FFFFFFFFFFFFFFF

theorem fits_assignments {s : Settings} : (∀ p ∈ s.assignments, Fits p) ↔ s.Writable := by
  have hall : (∀ p ∈ s.assignments, Fits p) ↔ ∀ f, s.get f < 0x8000000000000000 := by
    simp only [assignments, List.forall_mem_map]
    refine ⟨fun h f => (h f f.mem_all).2.2, fun h f _ => ?_⟩
    exact ⟨(f.bounds_get s).1, (f.bounds_get s).2, h f⟩
  rw [hall]
  constructor
  · intro h
    have hdedup := h .dedupMillis
    have hlimit := h .keyLimit
    simp only [get] at hdedup hlimit
    exact ⟨by omega, by omega⟩
  · rintro ⟨hdedup, hlimit⟩ f
    have hf := (f.bounds_get s).2
    cases f <;> simp only [get, Field.bounds, UInt32.size] at hf ⊢ <;> omega

theorem render?_eq_some_iff {s : Settings} {text : String} :
    s.render? = some text ↔
      s.Writable ∧ text = String.join ((named s.assignments).map pairLine) := by
  have hall : (named s.assignments).all (isInteger ·.2) = true ↔ s.Writable := by
    rw [← fits_assignments, List.all_eq_true]
    refine ⟨fun h => List.forall_mem_map.mpr fun f hf => ?_, isInteger_named⟩
    have hn := h (f.name, s.get f) (List.mem_map_of_mem (List.mem_map_of_mem hf))
    simp only [Toml.isInteger, Bool.and_eq_true, decide_eq_true_eq] at hn
    exact ⟨(f.bounds_get s).1, (f.bounds_get s).2, hn.2⟩
  have hnamed : s.render? = Toml.render? (named s.assignments) := rfl
  rw [hnamed, Toml.render?, Option.ite_none_right_eq_some, hall, Option.some_inj,
    eq_comm (a := text)]

theorem nodup_assignments (s : Settings) : (s.assignments.map (·.1)).Nodup := by
  have hkeys : s.assignments.map (·.1) = Field.all := rfl
  rw [hkeys]
  decide

theorem gives_of_render? {s : Settings} {text : String} (h : s.render? = some text) :
    Gives text s := by
  obtain ⟨hwritable, rfl⟩ := render?_eq_some_iff.mp h
  have hbare : ∀ p ∈ named s.assignments, p.1.toList ≠ [] ∧ ∀ c ∈ p.1.toList, isBare c := by
    simp only [named, assignments, List.forall_mem_map]
    intro f _
    cases f <;> exact ⟨by decide, List.all_eq_true.mp (by decide)⟩
  obtain ⟨u, hu, hread⟩ := ofText_document s.nodup_assignments (fits_assignments.mpr hwritable)
    (document_pairs hbare)
  obtain rfl := eq_of_overwrites hu
  exact gives_of_ofText hread

theorem refused_of_opens {text key : String} {before opening tail : List Char}
    (htext : text.toList = before ++ opening ++ tail) (hbefore : Precedes before)
    (hopens : Opens opening key) (hkey : key ∉ Field.all.map (·.name)) : Refused text := by
  have hparse : parse? text.toList = none := by
    rw [htext, Option.eq_none_iff_forall_not_mem]
    intro s hs
    obtain ⟨pairs, hpairs, hs⟩ := Option.bind_eq_some_iff.mp hs
    obtain ⟨n, hn⟩ := hopens.mem_pairs hbefore hpairs
    split at hs
    · exact hkey (mem_names_of_foldlM hs _ hn)
    · cases hs
  refine ⟨.malformed, _, ?_, rfl⟩
  rw [ofText, hparse]

/-- Settings are rendered exactly if the language has their values, and read back from the text. A
document of some of the keys, each once and with a value of its field, puts these values over the
defaults. A key that is none of the settings' is refused wherever a line opens with it. -/
theorem document_readings :
    (∀ s : Settings, ((∃ text, s.render? = some text) ↔ s.Writable) ∧
      ∀ text, s.render? = some text → Gives text s) ∧
    (∀ (text : String) (pairs : List (Field × Int)), (pairs.map (·.1)).Nodup →
      (∀ p ∈ pairs, Fits p) → Document text.toList (named pairs) →
        ∃ s, Overwrites {} s pairs ∧ Gives text s) ∧
    ∀ (text key : String) (before opening tail : List Char),
      text.toList = before ++ opening ++ tail → Precedes before → Opens opening key →
        key ∉ Field.all.map (·.name) → Refused text := by
  refine ⟨fun s => ⟨?_, fun text => gives_of_render?⟩, fun text pairs hnodup hfits htext => ?_,
    fun text key before opening tail htext => refused_of_opens htext⟩
  · exact ⟨fun ⟨text, h⟩ => (render?_eq_some_iff.mp h).1,
      fun h => ⟨_, render?_eq_some_iff.mpr ⟨h, rfl⟩⟩⟩
  · obtain ⟨s, hs, hread⟩ := ofText_document hnodup hfits htext
    exact ⟨s, hs, gives_of_ofText hread⟩

theorem document_readings_partial :
    let overlaid := "dedup_window_ms = 1_000 # one second\r\n\tbucket_count=+3"
    let values : List (Field × Int) := [(.dedupMillis, 1000), (.bucketCount, 3)]
    ({} : Settings).Writable ∧
    (∃ text, ({} : Settings).render? = some text ∧ ofText text = .ok {}) ∧
    (∃ s, Overwrites {} s values ∧ Gives overlaid s) ∧ Refused "bucket_count = 3\n [storage]" := by
  intro overlaid values
  obtain ⟨hrender, hoverlay, hrefused⟩ := document_readings
  have hwritable : ({} : Settings).Writable := by
    unfold Writable
    decide
  have hnil : Spaces [] := by decide
  have hblank : Spaces [' '] := by decide
  have htab : Spaces ['\t'] := by decide
  have hzero : Text.isDigit '0' := by decide
  have hone : Text.isDigit '1' := by decide
  have hthree : Text.isDigit '3' := by decide
  have hthousand : Grouped "1_000".toList 1000 :=
    (((Grouped.digit hone).apart hzero).next hzero).next hzero
  have hremark : Remark "# one second".toList :=
    .inr ⟨" one second".toList, rfl, List.all_eq_true.mp (by decide)⟩
  have hdedup : SpellsKey "dedup_window_ms".toList "dedup_window_ms" :=
    .bare (by decide) (List.all_eq_true.mp (by decide))
  have hbuckets : SpellsKey "bucket_count".toList "bucket_count" :=
    .bare (by decide) (List.all_eq_true.mp (by decide))
  have hfirst : Line "dedup_window_ms = 1_000 # one second".toList
      (some ("dedup_window_ms", 1000)) :=
    .pair hnil hdedup hblank hblank (.plain ⟨hthousand, by decide⟩) hblank hremark
  have hlast : Line "\tbucket_count=+3".toList (some ("bucket_count", 3)) :=
    .pair htab hbuckets hnil hnil (.plus ⟨.digit hthree, by decide⟩) hnil (.inl rfl)
  have hdocument : Document overlaid.toList (named values) := by
    have hlines : overlaid.toList = "dedup_window_ms = 1_000 # one second".toList ++ ['\r', '\n'] ++
        "\tbucket_count=+3".toList := by
      decide
    rw [hlines]
    exact .line hfirst (.inr rfl) (.last hlast)
  have hopens : Opens " [storage]".toList "storage" :=
    ⟨[' '], ['['], [], "storage".toList, [], ']', rfl, hblank, hnil, hnil,
      .bare (by decide) (List.all_eq_true.mp (by decide)), .inr ⟨.inl rfl, .inl rfl⟩⟩
  have hfits : ∀ p ∈ values, Fits p := by
    unfold Fits
    decide
  obtain ⟨text, htext⟩ := (hrender {}).1.mpr hwritable
  refine ⟨hwritable, ⟨text, htext, ((hrender {}).2 text htext).1 (by decide)⟩,
    hoverlay overlaid values (by decide) hfits hdocument, ?_⟩
  exact hrefused _ "storage" "bucket_count = 3\n".toList " [storage]".toList [] (by decide)
    (.inr (.inr ⟨"bucket_count = 3".toList, by decide⟩)) hopens (by decide)

end TraceIndex.Settings
