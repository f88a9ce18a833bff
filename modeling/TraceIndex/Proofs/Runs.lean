import Mathlib.Data.List.Nodup
import Mathlib.Data.List.Perm.Basic
import Mathlib.Logic.Relation
import Mathlib.Tactic.Tauto
import TraceIndex.Ingest.Release
import TraceIndex.Ingest.Setup
import TraceIndex.Proofs.Launch

namespace TraceIndex

/-- What moves a service on. `advance` chooses the write of a batch that is looked at next. A step
is a whole call: while spans are accepted, neither does the clock move nor is a key given back, and
both may happen in any number between two calls. `MarkCall` has a reading of the clock for each
key. -/
inductive Action
  | hire
  | accept (worker : Nat) (spans : List Span)
  | advance (batch place : Nat)
  | observe (batch : Nat)
  | drop (batch : Nat)
  | settleAlone (batch : Nat)
  | resolve (fate : Service.Fate) (ticket : Nat)
  | look (worker : Nat)
  | setClock (now : Clock)
  | setFaults (faults : List Fault)
  | setOptions (table : Table) (options : Options)

/-- What is told of a run: the spans that were accepted, and how statements were answered. -/
inductive Report
  | accepted (span : Span)
  | answered (statement : Statement) (reply : Except StoreFailure Unit)
  deriving DecidableEq

theorem getElem?_set_of_some {α : Type} {l : List α} {i : Nat} {a : α} (h : l[i]? = some a)
    (b : α) : (l.set i b)[i]? = some b :=
  List.getElem?_set_self (List.getElem?_eq_some_iff.mp h).1

theorem Setup.openService_eq_ok {setup : Setup} {s : Service} (h : setup.openService = .ok s) :
    ∃ schema expiry random durations, s = setup.service schema expiry random durations := by
  simp only [openService, bind, Except.bind] at h
  repeat' split at h
  · cases h
  · cases h
  · cases h
  · cases h
  · exact ⟨_, _, _, _, (Except.ok.inj h).symm⟩

def Batch.advance (b : Batch) (place : Nat) : Batch :=
  { b with ready := b.ready[place]?.toList ++ b.ready.eraseIdx place }

namespace Service

def advance (s : Service) (i place : Nat) : Service :=
  match s.batches[i]? with
  | none => s
  | some b => s.setBatch i (b.advance place)

def heldUnder? (s : Service) (ticket : Nat) : Option (Nat × Statement) :=
  s.held.find? (·.1 = ticket)

def unhold (s : Service) (ticket : Nat) : Service :=
  { s with held := s.held.filter (·.1 ≠ ticket) }

def resolveUnder (s : Service) (fate : Fate) (ticket : Nat) : Service :=
  match s.heldUnder? ticket with
  | none => s
  | some h => resolve fate (s.unhold ticket) h

def look (s : Service) (worker : Nat) : Service :=
  { s with workers := s.workers.modify worker (·.refresh s.clock) }

def act (s : Service) : Action → Service
  | .hire => s.addWorker
  | .accept worker spans => s.accept worker spans
  | .advance i place => s.advance i place
  | .observe i => s.observe i
  | .drop i => s.drop i
  | .settleAlone i => s.settleAlone i
  | .resolve fate ticket => s.resolveUnder fate ticket
  | .look worker => s.look worker
  | .setClock now => { s with clock := now }
  | .setFaults faults => { s with store := { s.store with faults } }
  | .setOptions table options => { s with store := s.store.setOptions table options }

def run (s : Service) (actions : List Action) : Service := actions.foldl act s

def told (s : Service) (a : Action) : List Statement :=
  (s.act a).store.log.drop s.store.log.length

/-- How the store answers what an action tells it. No action tells it something and changes its
options or faults. -/
def replies (s : Service) (a : Action) : List Report :=
  (s.told a).map fun st => .answered st (s.store.execute st).1

def reports (s : Service) (a : Action) : List Report :=
  match a with
  | .accept worker spans =>
    (if worker < s.workers.length then spans.map .accepted else []) ++ s.replies a
  | .resolve .abandoned ticket =>
    (s.heldUnder? ticket).toList.map (fun h => .answered h.2 (.error lost)) ++ s.replies a
  | _ => s.replies a

def history (s : Service) : List Action → List Report
  | [] => []
  | a :: rest => s.reports a ++ (s.act a).history rest

variable {s : Service}

@[simp] theorem run_nil : s.run [] = s := rfl

@[simp] theorem run_cons (a : Action) (rest : List Action) :
    s.run (a :: rest) = (s.act a).run rest := rfl

@[simp] theorem run_append (first rest : List Action) :
    s.run (first ++ rest) = (s.run first).run rest := by
  simp [run]

@[simp] theorem history_append (first rest : List Action) :
    s.history (first ++ rest) = s.history first ++ (s.run first).history rest := by
  induction first generalizing s with
  | nil => rfl
  | cons a first ih => simp [history, ih]

end Service

def Flight.returned (f : Flight) : Except Failure Unit → List String
  | .ok () => []
  | .error _ => f.attempt.mark.toList

namespace Batch

/-- A batch that has failed or was given up will not succeed. -/
def Spoilt (b : Batch) : Prop := b.failure.isSome ∨ b.isDropped

/-- How a batch changes that is looked at or given up, with the keys given back: a write that is no
longer outstanding has succeeded, or its key is given back and the batch is spoilt. Only keys of
writes that were outstanding are given back. -/
structure Tended (b b' : Batch) (keys : List String) : Prop where
  worker : b'.worker = b.worker
  outstanding : ∀ f ∈ b'.outstanding, f ∈ b.outstanding
  seen : ∀ f ∈ b.outstanding, f ∈ b'.outstanding ∨ f.outcome? = some (.ok ()) ∨
    b'.Spoilt ∧ ∀ key, f.attempt.mark = some key → key ∈ keys
  spoilt : b.Spoilt → b'.Spoilt
  returned : ∀ key ∈ keys, b'.Spoilt ∧ ∃ f ∈ b.outstanding, f.attempt.mark = some key

variable {b : Batch}

theorem mem_advance (place : Nat) (f : Flight) :
    f ∈ (b.advance place).outstanding ↔ f ∈ b.outstanding := by
  simp only [outstanding, advance, List.mem_append]
  apply or_congr_left
  cases h : b.ready[place]? with
  | none => simp [List.eraseIdx_of_length_le (List.getElem?_eq_none_iff.mp h)]
  | some g =>
    obtain ⟨hlt, hg⟩ := List.getElem?_eq_some_iff.mp h
    have hperm := List.getElem_cons_eraseIdx_perm hlt
    rw [hg] at hperm
    simpa using hperm.mem_iff (a := f)

theorem mem_scan (f : Flight) : f ∈ b.scan.outstanding ↔ f ∈ b.outstanding := by
  have hready : f ∈ b.ready ↔
      f ∈ b.ready.takeWhile (!·.isKnown) ∨ f ∈ b.ready.dropWhile (!·.isKnown) := by
    rw [← List.mem_append, List.takeWhile_append_dropWhile]
  simp only [outstanding, scan, List.mem_append, hready]
  tauto

theorem look?_eq_some {f : Flight} {outcome : Except Failure Unit} {after : Batch}
    (h : b.look? = some (f, outcome, after)) :
    ∃ rest, b.ready = f :: rest ∧ f.outcome? = some outcome ∧
      ((outcome = .ok () ∧ after = { b with ready := rest }) ∨
        ∃ failure, outcome = .error failure ∧
          after = { b with ready := rest, failure := b.failure <|> some failure }) := by
  simp only [look?] at h
  split at h
  · cases h
  · rename_i g rest hready
    split at h
    · cases h
    · rename_i houtcome
      cases h
      exact ⟨rest, hready, houtcome, .inl ⟨rfl, rfl⟩⟩
    · rename_i failure houtcome
      cases h
      exact ⟨rest, hready, houtcome, .inr ⟨failure, rfl, rfl⟩⟩

theorem mem_reply (ticket : Nat) (r : Except StoreFailure Unit) (f : Flight) :
    f ∈ (b.reply ticket r).outstanding ↔ ∃ g ∈ b.outstanding, answer ticket r g = f := by
  simp only [outstanding, reply, List.mem_append, List.mem_map, List.mem_filter, decide_eq_true_eq]
  constructor
  · rintro ((⟨g, hg, rfl⟩ | ⟨g, ⟨hg, -⟩, rfl⟩) | ⟨hf, hne⟩)
    · exact ⟨g, .inl hg, rfl⟩
    · exact ⟨g, .inr hg, rfl⟩
    · exact ⟨f, .inr hf, if_neg hne⟩
  · rintro ⟨g, hg | hg, rfl⟩
    · exact .inl (.inl ⟨g, hg, rfl⟩)
    · by_cases h : g.ticket = ticket
      · exact .inl (.inr ⟨g, ⟨hg, h⟩, rfl⟩)
      · have hsame : answer ticket r g = g := if_neg h
        rw [hsame]
        exact .inr ⟨hg, h⟩

theorem answer_attempt (ticket : Nat) (r : Except StoreFailure Unit) (f : Flight) :
    (answer ticket r f).attempt = f.attempt ∧ (answer ticket r f).ticket = f.ticket := by
  by_cases h : f.ticket = ticket <;> simp [answer, h]

theorem map_answer_of_ne {flights : List Flight} {ticket : Nat} {r : Except StoreFailure Unit}
    (h : ∀ f ∈ flights, f.ticket ≠ ticket) : flights.map (answer ticket r) = flights := by
  conv_rhs => rw [← List.map_id flights]
  exact List.map_congr_left fun f hf => if_neg (h f hf)

theorem Tended.of_mem {b' : Batch} (hw : b'.worker = b.worker)
    (hm : ∀ f, f ∈ b'.outstanding ↔ f ∈ b.outstanding) (hs : b.Spoilt → b'.Spoilt) :
    b.Tended b' [] :=
  ⟨hw, fun f => (hm f).mp, fun f hf => .inl ((hm f).mpr hf), hs,
    fun _ hkey => absurd hkey List.not_mem_nil⟩

theorem tended_look {f : Flight} {outcome : Except Failure Unit} {after : Batch}
    (h : b.scan.look? = some (f, outcome, after)) :
    b.Tended after (f.returned outcome) := by
  obtain ⟨rest, hready, houtcome, hcase⟩ := look?_eq_some h
  have hsplit : ∀ g, g ∈ b.outstanding ↔ g = f ∨ g ∈ rest ∨ g ∈ b.scan.waiting := fun g => by
    rw [← mem_scan, outstanding, hready, List.mem_append, List.mem_cons, or_assoc]
  have hleft : ∀ g, g ∈ b.outstanding ↔ g = f ∨ g ∈ after.outstanding := fun g => by
    rw [hsplit]
    obtain ⟨-, rfl⟩ | ⟨failure, -, rfl⟩ := hcase
    · simp only [outstanding, List.mem_append]
    · simp only [outstanding, List.mem_append]
  obtain ⟨rfl, rfl⟩ | ⟨failure, rfl, rfl⟩ := hcase
  · refine ⟨rfl, fun g hg => (hleft g).mpr (.inr hg), ?_, id,
      fun _ hkey => absurd hkey List.not_mem_nil⟩
    intro g hg
    obtain rfl | hg := (hleft g).mp hg
    · exact .inr (.inl houtcome)
    · exact .inl hg
  · have hspoilt : Spoilt { b.scan with ready := rest, failure := b.scan.failure <|> some failure } :=
      .inl (by cases b.scan.failure <;> rfl)
    refine ⟨rfl, fun g hg => (hleft g).mpr (.inr hg), ?_, fun _ => hspoilt, ?_⟩
    · intro g hg
      obtain rfl | hg := (hleft g).mp hg
      · exact .inr (.inr ⟨hspoilt, fun key hkey => by simp [Flight.returned, hkey]⟩)
      · exact .inl hg
    · intro key hkey
      exact ⟨hspoilt, f, (hleft f).mpr (.inl rfl), Option.mem_toList.mp hkey⟩

theorem tended_forget {b' : Batch} (hw : b'.worker = b.worker) (hs : b'.Spoilt) :
    b.Tended b'.forget b.marks where
  worker := hw
  outstanding f hf := by simp [forget, outstanding] at hf
  seen f hf := .inr (.inr ⟨hs, fun key hkey => List.mem_filterMap.mpr ⟨f, hf, hkey⟩⟩)
  spoilt _ := hs
  returned _ hkey := ⟨hs, List.mem_filterMap.mp hkey⟩

end Batch

namespace Service

/-- A batch is tended: nothing changes but the batch, the marks of its worker, and what is told and
counted. -/
def Tends (s t : Service) : Prop :=
  ∃ i b b' keys notices metrics, s.batches[i]? = some b ∧ b.Tended b' keys ∧
    t = { s with
      notices, metrics
      workers := (s.revert b.worker keys).workers
      batches := s.batches.set i b' }

abbrev Tending : Service → Service → Prop := Relation.ReflTransGen Tends

variable {s t : Service}

theorem revert_nil (s : Service) (worker : Nat) : s.revert worker [] = s := by
  have hid : (fun m : Marks => ([] : List String).foldl Marks.revert m) = id := rfl
  rw [revert, hid, List.modify_id]

theorem settleMark_eq (s : Service) (worker : Nat) (f : Flight) (outcome : Except Failure Unit) :
    s.settleMark worker f outcome = s.revert worker (f.returned outcome) := by
  cases outcome with
  | ok => exact (s.revert_nil worker).symm
  | error failure => rfl

theorem learn_eq (s : Service) (f : Flight) :
    ∃ notices metrics, s.learn f = { s with notices, metrics } := by
  simp only [learn]
  split <;> exact ⟨_, _, rfl⟩

theorem countBatch_eq (s : Service) (before after : Batch) :
    ∃ metrics, s.countBatch before after = { s with metrics } := by
  simp only [countBatch]
  split <;> exact ⟨_, rfl⟩

theorem tends_setBatch {i : Nat} {b b' : Batch} (hb : s.batches[i]? = some b)
    (h : b.Tended b' []) : Tends s (s.setBatch i b') := by
  refine ⟨i, b, b', [], s.notices, s.metrics, hb, h, ?_⟩
  rw [revert_nil]
  rfl

theorem observe_of_look {i : Nat} {b : Batch} (hb : s.batches[i]? = some b) {f : Flight}
    {outcome : Except Failure Unit} {after : Batch}
    (hlook : b.scan.look? = some (f, outcome, after)) :
    ∃ notices metrics, s.observe i = { s with
      notices, metrics
      workers := (s.revert b.worker (f.returned outcome)).workers
      batches := s.batches.set i after } := by
  obtain ⟨notices, metrics, hlearn⟩ := s.learn_eq f
  obtain ⟨metrics', hcount⟩ :=
    ((s.learn f).settleMark b.worker f outcome).countBatch_eq b.scan after
  refine ⟨notices, metrics', ?_⟩
  simp only [observe, hb, hlook]
  change (((s.learn f).settleMark b.worker f outcome).countBatch b.scan after).setBatch i after = _
  rw [hcount, settleMark_eq, hlearn]
  rfl

theorem tending_observe (i : Nat) (s : Service) : Tending s (s.observe i) := by
  cases hb : s.batches[i]? with
  | none =>
    simp only [observe, hb]
    exact .refl
  | some b =>
    cases hlook : b.scan.look? with
    | none =>
      simp only [observe, hb, hlook]
      exact .single (tends_setBatch hb (.of_mem rfl Batch.mem_scan id))
    | some look =>
      obtain ⟨f, outcome, after⟩ := look
      obtain ⟨notices, metrics, hobserve⟩ := observe_of_look hb hlook
      rw [hobserve]
      exact .single ⟨i, b, after, _, notices, metrics, hb, Batch.tended_look hlook, rfl⟩

theorem tending_advance (s : Service) (i place : Nat) : Tending s (s.advance i place) := by
  simp only [advance]
  split
  · exact .refl
  · rename_i b hb
    exact .single (tends_setBatch hb (.of_mem rfl (Batch.mem_advance place) id))

theorem tends_forget {i : Nat} {b b' : Batch} (hb : s.batches[i]? = some b)
    (hw : b'.worker = b.worker) (hm : b'.marks = b.marks) (hs : b'.Spoilt) :
    Tends s (s.forget i b') := by
  refine ⟨i, b, b'.forget, b.marks, s.notices, s.metrics, hb, Batch.tended_forget hw hs, ?_⟩
  rw [forget, hw, hm]
  rfl

theorem tending_drop (s : Service) (i : Nat) : Tending s (s.drop i) := by
  simp only [drop]
  split
  · exact .refl
  · rename_i b hb
    split
    · exact .single (tends_forget hb rfl rfl (.inr rfl))
    · exact .refl

theorem tending_observeUntilFailure (i n : Nat) (s : Service) :
    Tending s (observeUntilFailure i n s) := by
  induction n generalizing s with
  | zero => exact .refl
  | succ n ih =>
    simp only [observeUntilFailure]
    split
    · exact .refl
    · exact (tending_observe i s).trans (ih _)

theorem tends_notify (s : Service) (notices : List Notice) {i : Nat} {b : Batch}
    (hb : s.batches[i]? = some b) : Tends s (s.notify notices) := by
  refine ⟨i, b, b, [], s.notices ++ notices, s.metrics, hb, .of_mem rfl (fun _ => .rfl) id, ?_⟩
  obtain ⟨hlt, rfl⟩ := List.getElem?_eq_some_iff.mp hb
  rw [revert_nil, List.set_getElem_self]
  rfl

theorem tending_settleAlone (s : Service) (i : Nat) : Tending s (s.settleAlone i) := by
  have hlook := tending_observeUntilFailure i (s.readyCount i) s
  simp only [settleAlone]
  split
  · exact hlook
  · rename_i b hb
    split
    · rename_i hfailed
      split
      · exact hlook
      · refine (hlook.tail (tends_notify _ _ hb)).tail (tends_forget ?_ rfl rfl (.inl hfailed))
        exact hb
    · exact hlook.trans (tending_drop _ i)

theorem Tending.frame (h : Tending s t) :
    ∃ notices metrics workers batches,
      t = { s with notices, metrics, workers, batches } := by
  induction h with
  | refl => exact ⟨_, _, _, _, rfl⟩
  | tail _ hstep ih =>
    obtain ⟨_, _, _, _, rfl⟩ := ih
    obtain ⟨i, b, b', keys, notices, metrics, -, -, rfl⟩ := hstep
    exact ⟨_, _, _, _, rfl⟩

def replyTo (s : Service) (st : Statement) : Fate → Except StoreFailure Unit
  | .released => (s.store.execute st).1
  | .abandoned => .error lost

def storeAfter (s : Service) (st : Statement) : Fate → Keyspace
  | .released => s.store.tell st
  | .abandoned => s.store

theorem resolveUnder_of_none {ticket : Nat} (h : s.heldUnder? ticket = none) (fate : Fate) :
    s.resolveUnder fate ticket = s := by
  simp only [resolveUnder, h]

theorem resolveUnder_of_some {ticket : Nat} {h : Nat × Statement}
    (hh : s.heldUnder? ticket = some h) (fate : Fate) :
    s.resolveUnder fate ticket = { s with
      held := s.held.filter (·.1 ≠ ticket)
      store := s.storeAfter h.2 fate
      batches := s.batches.map (·.reply h.1 (s.replyTo h.2 fate)) } := by
  simp only [resolveUnder, hh]
  cases fate <;> rfl

theorem mem_held_of_heldUnder? {ticket : Nat} {h : Nat × Statement}
    (hh : s.heldUnder? ticket = some h) : h ∈ s.held ∧ h.1 = ticket :=
  ⟨List.mem_of_find?_eq_some hh, by simpa using List.find?_some hh⟩

theorem told_of_log {a : Action} (h : (s.act a).store.log = s.store.log) : s.told a = [] := by
  rw [told, h, List.drop_length]

theorem replies_of_log {a : Action} (h : (s.act a).store.log = s.store.log) : s.replies a = [] := by
  rw [replies, told_of_log h, List.map_nil]

theorem replies_of_tending {a : Action} (h : Tending s (s.act a)) : s.replies a = [] := by
  obtain ⟨_, _, _, _, hact⟩ := h.frame
  exact replies_of_log (by rw [hact])

theorem reports_accept {worker : Nat} {marks : Marks} (h : s.workers[worker]? = some marks)
    (spans : List Span) :
    s.reports (.accept worker spans) = spans.map .accepted ++
      ((s.started marks spans).filterMap s.direct?).map fun st =>
        .answered st (s.store.execute st).1 := by
  have hlog : (s.accept worker spans).store.log =
      s.store.log ++ (s.started marks spans).filterMap s.direct? := by
    rw [accept_store h, Keyspace.tellAll_log]
  have hlt : worker < s.workers.length := (List.getElem?_eq_some_iff.mp h).1
  simp only [reports, replies, told, act, hlog, List.drop_left, hlt, ↓reduceIte]

theorem answered_accept {worker : Nat} {marks : Marks} {spans : List Span}
    (h : s.workers[worker]? = some marks) {st : Statement} {r : Except StoreFailure Unit} :
    .answered st r ∈ s.reports (.accept worker spans) ↔
      st ∈ (s.started marks spans).filterMap s.direct? ∧ (s.store.execute st).1 = r := by
  rw [reports_accept h]
  simp only [List.mem_append, List.mem_map, reduceCtorEq, and_false, exists_false, false_or,
    Report.answered.injEq]
  constructor
  · rintro ⟨st', hst', rfl, rfl⟩
    exact ⟨hst', rfl⟩
  · rintro ⟨hst, rfl⟩
    exact ⟨st, hst, rfl, rfl⟩

theorem sent_of_answered {worker : Nat} {marks : Marks} {spans : List Span}
    (h : s.workers[worker]? = some marks) {st : Statement} {r : Except StoreFailure Unit}
    (hst : .answered st r ∈ s.reports (.accept worker spans)) :
    ∃ a ∈ s.started marks spans, a.sent? = some st := by
  obtain ⟨a, ha, hdirect⟩ := List.mem_filterMap.mp ((answered_accept h).mp hst).1
  exact ⟨a, ha, (Option.filter_eq_some_iff.mp hdirect).1⟩

theorem reports_accept_of_none {worker : Nat} (h : s.workers[worker]? = none)
    (spans : List Span) : s.reports (.accept worker spans) = [] := by
  have hle : ¬ worker < s.workers.length := Nat.not_lt.mpr (List.getElem?_eq_none_iff.mp h)
  have hreplies : s.replies (.accept worker spans) = [] :=
    replies_of_log (by rw [act, accept_of_none h])
  simp only [reports, hle, hreplies, ↓reduceIte, List.append_nil]

theorem reports_resolve_of_none {ticket : Nat} (h : s.heldUnder? ticket = none) (fate : Fate) :
    s.reports (.resolve fate ticket) = [] := by
  have hreplies : s.replies (.resolve fate ticket) = [] :=
    replies_of_log (by rw [act, resolveUnder_of_none h])
  cases fate with
  | released => exact hreplies
  | abandoned => simp only [reports, hreplies, h, Option.toList_none, List.map_nil, List.append_nil]

theorem reports_resolve {ticket : Nat} {h : Nat × Statement} (hh : s.heldUnder? ticket = some h)
    (fate : Fate) :
    s.reports (.resolve fate ticket) = [.answered h.2 (s.replyTo h.2 fate)] := by
  cases fate with
  | released =>
    have hlog : (s.resolveUnder .released ticket).store.log = s.store.log ++ [h.2] := by
      rw [resolveUnder_of_some hh, ← Keyspace.tell_log]
      rfl
    simp only [reports, replies, told, act, hlog, List.drop_left]
    rfl
  | abandoned =>
    have hreplies : s.replies (.resolve .abandoned ticket) = [] :=
      replies_of_log (by rw [act, resolveUnder_of_some hh]; rfl)
    simp only [reports, hreplies, hh, Option.toList_some, List.map_cons, List.map_nil,
      List.append_nil]
    rfl

theorem live_addWorker {w : Nat} {m : Marks} {key : String}
    (h : s.addWorker.workers[w]? = some m) (hl : m.Live key) : s.workers[w]? = some m := by
  simp only [addWorker, List.getElem?_append] at h
  split at h
  · exact h
  · rw [List.getElem?_singleton] at h
    split at h
    · cases h
      exact absurd hl (Marks.not_live_fresh _ _ _)
    · cases h

theorem live_look {worker w : Nat} {m : Marks} {key : String}
    (h : (s.look worker).workers[w]? = some m) (hl : m.Live key) :
    ∃ m₀, s.workers[w]? = some m₀ ∧ m₀.Live key ∧ m₀.window = m.window := by
  simp only [look, List.getElem?_modify] at h
  obtain ⟨m₀, hm₀, rfl⟩ := Option.map_eq_some_iff.mp h
  refine ⟨m₀, hm₀, ?_⟩
  split at hl
  · have hforce := (m₀.live_refresh _ key).mp hl
    exact ⟨hforce.live, by simpa [*] using Marks.InForce.window hforce |>.symm⟩
  · rename_i hne
    exact ⟨hl, by simp [hne]⟩

theorem live_revert {worker w : Nat} {keys : List String} {m : Marks} {key : String}
    (h : (s.revert worker keys).workers[w]? = some m) (hl : m.Live key) :
    ∃ m₀, s.workers[w]? = some m₀ ∧ m₀.Live key ∧ m₀.window = m.window ∧
      (worker = w → key ∉ keys) := by
  simp only [revert, List.getElem?_modify] at h
  obtain ⟨m₀, hm₀, rfl⟩ := Option.map_eq_some_iff.mp h
  refine ⟨m₀, hm₀, ?_⟩
  split at hl
  · rename_i heq
    obtain ⟨hl, hkey⟩ := (m₀.live_reverts key keys).mp hl
    exact ⟨hl, by simp [heq], fun _ => hkey⟩
  · rename_i hne
    exact ⟨hl, by simp [hne], fun heq => absurd heq hne⟩

theorem live_accept {worker w : Nat} {marks m : Marks} {spans : List Span} {key : String}
    (h : s.workers[worker]? = some marks) (hm : (s.accept worker spans).workers[w]? = some m)
    (hl : m.Live key) :
    (∃ m₀, s.workers[w]? = some m₀ ∧ m₀.Live key ∧ m₀.window = m.window) ∨
      w = worker ∧ ∃ a ∈ s.started marks spans, a.mark = some key := by
  rw [accept_eq h] at hm
  simp only [readied, List.getElem?_set] at hm
  split at hm
  · rename_i hw
    subst hw
    split at hm
    · cases hm
      obtain ⟨hl, hwindow⟩ | hstarted := Desk.live_attempts hl
      · exact .inl ⟨marks, h, hl, hwindow⟩
      · exact .inr ⟨rfl, hstarted⟩
    · cases hm
  · exact .inl ⟨m, hm, hl, rfl⟩

/-- A property of a service, given what was told of it, that each kind of step preserves. -/
structure Preserved (P : List Report → Service → Prop) : Prop where
  hire : ∀ past s, P past s → P past s.addWorker
  accept : ∀ past s worker marks spans, s.workers[worker]? = some marks → P past s →
    P (past ++ s.reports (.accept worker spans)) (s.accept worker spans)
  tends : ∀ past s t, Tends s t → P past s → P past t
  resolve : ∀ past s fate h, s.heldUnder? h.1 = some h → P past s →
    P (past ++ [.answered h.2 (s.replyTo h.2 fate)]) (s.resolveUnder fate h.1)
  look : ∀ past s worker, P past s → P past (s.look worker)
  set : ∀ past s clock faults options, P past s →
    P past { s with clock, store := { s.store with faults, options } }

namespace Preserved

variable {P : List Report → Service → Prop} {past : List Report}

theorem tending (hP : Preserved P) (h : Tending s t) (hs : P past s) : P past t := by
  induction h with
  | refl => exact hs
  | tail _ hstep ih => exact hP.tends past _ _ hstep ih

theorem act (hP : Preserved P) (a : Action) (hs : P past s) :
    P (past ++ s.reports a) (s.act a) := by
  have quiet : P past (s.act a) → (s.act a).store.log = s.store.log →
      s.reports a = s.replies a → P (past ++ s.reports a) (s.act a) := by
    intro h hlog hreports
    rwa [hreports, replies_of_log hlog, List.append_nil]
  have tended : Tending s (s.act a) → s.reports a = s.replies a →
      P (past ++ s.reports a) (s.act a) := by
    intro h hreports
    rw [hreports, replies_of_tending h, List.append_nil]
    exact hP.tending h hs
  cases a with
  | hire => exact quiet (hP.hire past s hs) rfl rfl
  | accept worker spans =>
    cases h : s.workers[worker]? with
    | none =>
      rw [reports_accept_of_none h, List.append_nil, Service.act, accept_of_none h]
      exact hs
    | some marks => exact hP.accept past s worker marks spans h hs
  | advance i place => exact tended (tending_advance s i place) rfl
  | observe i => exact tended (tending_observe i s) rfl
  | drop i => exact tended (tending_drop s i) rfl
  | settleAlone i => exact tended (tending_settleAlone s i) rfl
  | resolve fate ticket =>
    cases h : s.heldUnder? ticket with
    | none =>
      rw [reports_resolve_of_none h, List.append_nil, Service.act, resolveUnder_of_none h]
      exact hs
    | some held =>
      obtain ⟨-, rfl⟩ := mem_held_of_heldUnder? h
      rw [reports_resolve h]
      exact hP.resolve past s fate held h hs
  | look worker => exact quiet (hP.look past s worker hs) rfl rfl
  | setClock now => exact quiet (hP.set past s now s.store.faults s.store.options hs) rfl rfl
  | setFaults faults => exact quiet (hP.set past s s.clock faults s.store.options hs) rfl rfl
  | setOptions table options => exact quiet (hP.set past s s.clock s.store.faults _ hs) rfl rfl

theorem run (hP : Preserved P) (hs : P past s) (actions : List Action) :
    P (past ++ s.history actions) (s.run actions) := by
  induction actions generalizing past s with
  | nil => simpa [history] using hs
  | cons a rest ih =>
    have hrest := ih (hP.act a hs)
    rwa [List.append_assoc] at hrest

end Preserved

/-- Held-back statements stand in the order of their tickets. -/
structure Ticketed (s : Service) : Prop where
  sorted : (s.held.map (·.1)).Pairwise (· < ·)
  issued : ∀ h ∈ s.held, h.1 < s.issued

theorem store_opened {setup : Setup} (h : setup.openService = .ok s) : s.store = setup.store := by
  obtain ⟨schema, expiry, random, durations, rfl⟩ := Setup.openService_eq_ok h
  rfl

theorem ticketed_opened {setup : Setup} (h : setup.openService = .ok s) : s.Ticketed := by
  obtain ⟨schema, expiry, random, durations, rfl⟩ := Setup.openService_eq_ok h
  exact ⟨.nil, fun h hh => absurd hh List.not_mem_nil⟩

theorem ticketed_accept {worker : Nat} {marks : Marks} {spans : List Span}
    (h : s.workers[worker]? = some marks) (hs : s.Ticketed) :
    (s.accept worker spans).Ticketed := by
  constructor
  · rw [accept_held h, List.map_append, List.pairwise_append]
    refine ⟨hs.sorted, heldBack_tickets _ _ _, ?_⟩
    intro m hm n hn
    obtain ⟨g, hg, rfl⟩ := List.mem_map.mp hm
    obtain ⟨g', hg', rfl⟩ := List.mem_map.mp hn
    obtain ⟨i, -, -, hi, -⟩ := mem_heldBack hg'
    have := hs.issued g hg
    omega
  · intro g hg
    rw [accept_held h] at hg
    rw [accept_issued h]
    obtain hg | hg := List.mem_append.mp hg
    · exact Nat.lt_add_right _ (hs.issued g hg)
    · obtain ⟨i, a, ha, hi, -⟩ := mem_heldBack hg
      have hlt := (List.getElem?_eq_some_iff.mp ha).1
      omega

theorem ticketed_resolve (hs : s.Ticketed) (fate : Fate) {h : Nat × Statement}
    (hh : s.heldUnder? h.1 = some h) : (s.resolveUnder fate h.1).Ticketed := by
  rw [resolveUnder_of_some hh]
  refine ⟨?_, fun g hg => hs.issued g (List.mem_of_mem_filter hg)⟩
  exact hs.sorted.sublist (List.filter_sublist.map _)

theorem Ticketed.frame (hs : s.Ticketed) (hheld : t.held = s.held) (hissued : t.issued = s.issued) :
    t.Ticketed := by
  constructor
  · rw [hheld]
    exact hs.sorted
  · rw [hheld, hissued]
    exact hs.issued

theorem Tends.frame (h : Tends s t) :
    t.held = s.held ∧ t.issued = s.issued ∧ t.store = s.store := by
  obtain ⟨_, _, _, _, _, _, -, -, rfl⟩ := h
  exact ⟨rfl, rfl, rfl⟩

theorem ticketed_preserved : Preserved fun _ s => s.Ticketed where
  hire _ _ hs := hs.frame rfl rfl
  accept _ _ _ _ _ h hs := ticketed_accept h hs
  tends _ _ _ h hs := hs.frame h.frame.1 h.frame.2.1
  resolve _ _ fate _ hh hs := ticketed_resolve hs fate hh
  look _ _ _ hs := hs.frame rfl rfl
  set _ _ _ _ _ hs := hs.frame rfl rfl

theorem ticketed_run {setup : Setup} (opened : setup.openService = .ok s)
    (actions : List Action) : (s.run actions).Ticketed :=
  @Preserved.run s _ [] ticketed_preserved (ticketed_opened opened) actions

theorem Ticketed.eq_of_ticket (hs : s.Ticketed) {g h : Nat × Statement} (hg : g ∈ s.held)
    (hh : h ∈ s.held) (heq : g.1 = h.1) : g = h := by
  have hnodup : (s.held.map (·.1)).Nodup := hs.sorted.imp Nat.ne_of_lt
  exact List.inj_on_of_nodup_map hnodup hg hh heq

theorem heldUnder?_of_mem (hs : s.Ticketed) {h : Nat × Statement} (hh : h ∈ s.held) :
    s.heldUnder? h.1 = some h := by
  cases hg : s.heldUnder? h.1 with
  | none => exact absurd (decide_eq_true rfl) (List.find?_eq_none.mp hg h hh)
  | some g =>
    obtain ⟨hmem, hticket⟩ := mem_held_of_heldUnder? hg
    rw [hs.eq_of_ticket hmem hh hticket]

theorem setBatch_self {i : Nat} {b : Batch} (hb : s.batches[i]? = some b) :
    s.setBatch i b = s := by
  obtain ⟨hlt, rfl⟩ := List.getElem?_eq_some_iff.mp hb
  rw [setBatch, List.set_getElem_self]

def releases (chosen : List (Nat × Statement)) : List Action :=
  chosen.map fun h => .resolve .released h.1

section Releases

variable {chosen : List (Nat × Statement)}

theorem mem_held_of_release {g : Nat × Statement} {rest : List (Nat × Statement)}
    (hc : ((g :: rest).map (·.1)).Nodup) (hsub : ∀ h ∈ g :: rest, h ∈ s.held) :
    ∀ h ∈ rest, h ∈ s.held.filter (·.1 ≠ g.1) := by
  intro h hh
  apply List.mem_filter.mpr
  refine ⟨hsub h (List.mem_cons_of_mem _ hh), decide_eq_true ?_⟩
  intro heq
  rw [List.map_cons, List.nodup_cons] at hc
  exact hc.1 (heq ▸ List.mem_map_of_mem hh)

theorem filter_release (held : List (Nat × Statement)) (g : Nat × Statement)
    (rest : List (Nat × Statement)) :
    (held.filter (·.1 ≠ g.1)).filter (fun h => h.1 ∉ rest.map (·.1)) =
      held.filter fun h => h.1 ∉ (g :: rest).map (·.1) := by
  rw [List.filter_filter]
  apply List.filter_congr
  intro h _
  simp only [List.map_cons, List.mem_cons, not_or, Bool.decide_and, Bool.and_comm, ne_eq]

theorem run_releases (hs : s.Ticketed) (hc : (chosen.map (·.1)).Nodup)
    (hsub : ∀ h ∈ chosen, h ∈ s.held) :
    s.run (releases chosen) = { s with
      held := s.held.filter fun g => g.1 ∉ chosen.map (·.1)
      store := s.store.tellAll (chosen.map (·.2))
      batches := s.batches.map fun b =>
        chosen.foldl (fun b g => b.reply g.1 (s.store.execute g.2).1) b } := by
  induction chosen generalizing s with
  | nil => simp [releases]
  | cons g rest ih =>
    have hg := heldUnder?_of_mem hs (hsub g List.mem_cons_self)
    have hstep := resolveUnder_of_some hg .released
    have hkept := mem_held_of_release hc hsub
    have hrest := ih (ticketed_resolve hs .released hg) (List.nodup_cons.mp hc).2
      (by rwa [hstep])
    have hbatches : (s.batches.map (·.reply g.1 (s.replyTo g.2 .released))).map (fun b =>
        rest.foldl (fun b h => b.reply h.1 ((s.store.tell g.2).execute h.2).1) b) =
        s.batches.map fun b =>
          (g :: rest).foldl (fun b h => b.reply h.1 (s.store.execute h.2).1) b := by
      rw [List.map_map]
      apply List.map_congr_left
      intro b _
      simp only [Function.comp_apply, Keyspace.reply_congr Keyspace.tell_options Keyspace.tell_faults]
      rfl
    change (s.resolveUnder .released g.1).run (releases rest) = _
    rw [hrest, hstep]
    simp only [filter_release]
    rw [← hbatches]
    rfl

theorem history_releases (hs : s.Ticketed) (hc : (chosen.map (·.1)).Nodup)
    (hsub : ∀ h ∈ chosen, h ∈ s.held) :
    s.history (releases chosen) = chosen.map fun g => .answered g.2 (s.store.execute g.2).1 := by
  induction chosen generalizing s with
  | nil => rfl
  | cons g rest ih =>
    have hg := heldUnder?_of_mem hs (hsub g List.mem_cons_self)
    have hstep := resolveUnder_of_some hg .released
    have hkept := mem_held_of_release hc hsub
    have hrest := ih (ticketed_resolve hs .released hg) (List.nodup_cons.mp hc).2
      (by rwa [hstep])
    have hstore : (s.resolveUnder .released g.1).store = s.store.tell g.2 := by
      rw [hstep]
      rfl
    simp only [hstore, Keyspace.reply_congr Keyspace.tell_options Keyspace.tell_faults] at hrest
    change s.reports (.resolve .released g.1) ++
      (s.resolveUnder .released g.1).history (releases rest) = _
    rw [reports_resolve hg, hrest]
    rfl

end Releases

end Service

def Setup.zipkin : Setup := { Setup.ephemeral "zipkin" with seed := some 0 }

namespace Service

def zipkin : Service :=
  Setup.zipkin.service
    ⟨"org.apache.cassandra.db.compaction.SizeTieredCompactionStrategy"⟩ (.explicit 604800 259200)
    ⟨10, by decide, .seeded 0⟩ .daily

theorem zipkin_opened : Setup.zipkin.openService = .ok zipkin := by rfl

end Service

def Span.of (service name : String) : Span where
  traceId := 1
  id := 2
  parentId := none
  name
  timestamp := none
  duration := none
  events := []
  tags := [.string "peer" "here" (some (.named service))]

end TraceIndex
