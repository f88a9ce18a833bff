import Mathlib.Data.List.TakeWhile
import TraceIndex.Proofs.Forms

namespace TraceIndex

namespace Json

/-- A value whose last byte says where it ends, as that of a number does not. -/
def Bracketed : Json → Prop
  | array _ | object _ => True
  | _ => False

def Delimited (v : Json) : Prop :=
  ∀ fuel rest, 2 * (print v).length ≤ fuel → value? fuel (print v ++ rest) = some (v, rest)

theorem carries_delimited :
    form.Carries (fun _ => True) fun _ v => Reads v ∧ (Bracketed v → Delimited v) where
  small _ _ := trivial
  null _ := ⟨reads_null, False.elim⟩
  integer _ n := ⟨reads_integer n, False.elim⟩
  text _ s _ := ⟨reads_text s, False.elim⟩
  list _ items _ h := by
    have hitems : ∀ v ∈ items, Reads v := fun v hv => (h v hv).1
    exact ⟨reads_list hitems, fun _ => value?_array hitems⟩
  record _ members _ _ h := by
    have hmembers : ∀ m ∈ members, Reads m.2 := fun m hm => (h m hm).1
    exact ⟨reads_record hmembers, fun _ => value?_record hmembers⟩

theorem delimited_span (s : Span) : Delimited (s.write form) :=
  (carries_delimited.span fun _ _ => trivial).2 trivial

theorem delimited_spans (ss : List Span) : Delimited (Span.writeList form ss) := by
  refine value?_array fun v hv => ?_
  obtain ⟨s, -, rfl⟩ := List.mem_map.mp hv
  exact carries.span fun _ _ => trivial

theorem isEmpty_skipBlanks (bytes : Bytes) : (skipBlanks bytes).isEmpty = bytes.all isBlank := by
  rw [Bool.eq_iff_iff, List.isEmpty_iff, skipBlanks, List.dropWhile_eq_nil_iff, List.all_eq_true]

theorem all_isBlank (bytes : Bytes) :
    bytes.all isBlank ↔ ∀ b ∈ bytes, b ∈ [0x20, 0x09, 0x0A, 0x0D] := by
  simp [isBlank, or_assoc]

theorem Delimited.parse?_append {v : Json} (h : Delimited v) (suffix : Bytes) :
    parse? (print v ++ suffix) = if suffix.all isBlank then some v else none := by
  have hfuel : 2 * (print v).length ≤ enough (print v ++ suffix) := by
    rw [enough, List.length_append]
    omega
  rw [parse?, h _ suffix hfuel]
  simp only [isEmpty_skipBlanks]

end Json

theorem Span.readList?_writeList {α : Type} {F : Form α} (hF : F.Lawful) (ss : List Span) :
    readList? F (writeList F ss) = some ss := by
  rw [readList?, writeList, hF.list]
  exact mapM_written fun s _ => read?_write hF s

namespace Codec

open Json

theorem orFailure_append {α : Type} (name : String) {v : Json} {read? : Json → Option α} {a : α}
    (hv : Delimited v) (hread : read? v = some a) (suffix : Bytes) :
    orFailure name ((parse? (print v ++ suffix)).bind read?) =
      if suffix.all isBlank then .ok a else .error (.codec ("no span in " ++ name)) := by
  rw [hv.parse?_append]
  split
  · rw [Option.bind_some, hread, orFailure]
  · rw [Option.bind_none, orFailure]

theorem json_decode_append (s : Span) (suffix : Bytes) :
    json.decode (print (s.write form) ++ suffix) =
      if suffix.all isBlank then .ok s else .error (.codec ("no span in " ++ "json")) := by
  simp only [json, ofForm]
  exact orFailure_append "json" (delimited_span s) (Span.read?_write lawful s) suffix

theorem json_decodeList_append (ss : List Span) (suffix : Bytes) :
    json.decodeList (print (Span.writeList form ss) ++ suffix) =
      if suffix.all isBlank then .ok ss else .error (.codec ("no span in " ++ "json")) := by
  simp only [json, ofForm]
  exact orFailure_append "json" (delimited_spans ss) (Span.readList?_writeList lawful ss) suffix

theorem json_decodeList_print (ss : List Span) :
    json.decodeList (print (Span.writeList form ss)) = .ok ss := by
  have hread := json_decodeList_append ss []
  rwa [List.append_nil, if_pos List.all_nil] at hread

/-- Spans and lists of spans are read back from the notation that they are written in. What may
stand behind them are blanks, and with anything else behind them they are refused. -/
theorem json_round_trip (s : Span) (ss : List Span) :
    ∃ one many, json.encode s = .ok one ∧ json.encodeList ss = .ok many ∧
      json.decode one = .ok s ∧ json.decodeList many = .ok ss ∧
      ∀ suffix : Bytes,
        ((∀ b ∈ suffix, b ∈ [0x20, 0x09, 0x0A, 0x0D]) →
          json.decode (one ++ suffix) = .ok s ∧ json.decodeList (many ++ suffix) = .ok ss) ∧
        (¬ (∀ b ∈ suffix, b ∈ [0x20, 0x09, 0x0A, 0x0D]) →
          (∃ m, json.decode (one ++ suffix) = .error (.codec m)) ∧
            ∃ m, json.decodeList (many ++ suffix) = .error (.codec m)) := by
  refine ⟨print (s.write form), print (Span.writeList form ss), rfl, rfl, json_decode rfl,
    json_decodeList_print ss, fun suffix => ?_⟩
  rw [← all_isBlank, json_decode_append, json_decodeList_append]
  constructor
  · intro hblank
    exact ⟨if_pos hblank, if_pos hblank⟩
  · intro hother
    exact ⟨⟨_, if_neg hother⟩, ⟨_, if_neg hother⟩⟩

end Codec

end TraceIndex
