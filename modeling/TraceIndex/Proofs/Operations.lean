import TraceIndex.Proofs.Names
import TraceIndex.Proofs.Tables
import TraceIndex.Proofs.Texts

namespace TraceIndex

inductive Operation
  | execute (st : Statement)
  | addFault (fault : Fault)
  | clearFaults
  | setOptions (table : Table) (options : Options)
  | setOptionOnAll (key value : String)
  | setReplication (settings : Options)
  | clear

/-- What has been done to a store, the latest first. -/
abbrev History := List Operation

namespace Keyspace

def operate (k : Keyspace) : Operation → Keyspace
  | .execute st => k.tell st
  | .addFault fault => k.addFault fault
  | .clearFaults => k.clearFaults
  | .setOptions table options => k.setOptions table options
  | .setOptionOnAll key value => k.setOptionOnAll key value
  | .setReplication settings => { k with replication := settings }
  | .clear => k.clear

def after (k : Keyspace) : History → Keyspace
  | [] => k
  | op :: earlier => (k.after earlier).operate op

end Keyspace

namespace History

def faults : History → List Fault
  | [] => []
  | .addFault fault :: earlier => faults earlier ++ [fault]
  | .clearFaults :: _ => []
  | _ :: earlier => faults earlier

def options : History → PerTable Options
  | [] => .ofFn fun _ => Keyspace.freshOptions
  | .setOptions table changed :: earlier => (options earlier).set table changed
  | .setOptionOnAll key value :: earlier => .ofFn fun t => ((options earlier).get t).set key value
  | _ :: earlier => options earlier

/-- An incomplete statement is refused, and then the first fault that meets it decides. -/
def reply (history : History) (st : Statement) : Except StoreFailure Unit :=
  match st.validate with
  | .error failure => .error failure
  | .ok () =>
    match history.faults.findSome? (· st) with
    | some failure => .error failure
    | none => .ok ()

end History

/-- A statement, and what had been done to the store before it. -/
structure Execution where
  before : History
  statement : Statement

namespace Execution

def succeeded (e : Execution) : Bool := (e.before.reply e.statement).isOk

def isUnder (table : Table) (key : List Cell) (e : Execution) : Bool :=
  e.statement.table = table ∧ e.statement.primaryKey? = some key

/-- The expiry that the statement bound, or else a positive one of its table when it was run. -/
def ttl? (e : Execution) : Option UInt32 :=
  let table := e.statement.table
  e.statement.ttl <|>
    ((e.before.options.get table).defaultTtlSeconds table).toOption.filter (0 < ·)

end Execution

namespace History

def executions : History → List Execution
  | [] => []
  | .execute st :: earlier => ⟨earlier, st⟩ :: executions earlier
  | .clear :: _ => []
  | _ :: earlier => executions earlier

def last? (history : History) (table : Table) (key : List Cell) : Option Execution :=
  history.executions.find? fun e => e.succeeded && e.isUnder table key

end History

namespace Statement

variable {st : Statement}

theorem get?_of_validate (h : st.validate = .ok ()) :
    ∀ c ∈ st.table.columns, (st.get? c).isSome := by
  intro c hc
  cases hmissing : st.insert.columns.find? fun c => (st.get? c).isNone with
  | some missing =>
    rw [validate, hmissing] at h
    cases h
  | none =>
    have hbound := List.find?_eq_none.mp hmissing c hc
    rwa [Option.isNone_iff_eq_none, ← ne_eq, ← Option.isSome_iff_ne_none] at hbound

theorem complete_of_validate (h : st.validate = .ok ()) :
    (∃ key, st.primaryKey? = some key ∧ key.length = st.table.primaryKey.length) ∧
      st.payload.map (·.1) = st.table.payload := by
  have hbound := get?_of_validate h
  constructor
  · obtain ⟨key, hkey⟩ := Writer.mapM_of_all fun c hc => hbound c (List.mem_append_left _ hc)
    exact ⟨key, hkey, length_primaryKey? hkey⟩
  · rw [payload, List.map_filterMap]
    have hname : ∀ c ∈ st.table.payload,
        ((st.get? c).map (c, ·)).map (·.1) = some c := by
      intro c hc
      obtain ⟨cell, hcell⟩ := Option.isSome_iff_exists.mp (hbound c (List.mem_append_right _ hc))
      rw [hcell]
      rfl
    rw [List.filterMap_congr hname, List.filterMap_some]

end Statement

namespace Keyspace

variable {k : Keyspace} {st : Statement}

theorem execute_reply (k : Keyspace) (st : Statement) :
    (k.execute st).1 =
      match st.validate with
      | .error failure => .error failure
      | .ok () =>
        match k.faults.findSome? (· st) with
        | some failure => .error failure
        | none => .ok () := by
  cases hvalid : st.validate with
  | error failure =>
    have hrow : k.rowOf st = .error failure := by
      simp only [rowOf, hvalid]
      rfl
    rw [execute_of_error hrow]
  | ok _ =>
    obtain ⟨⟨key, hkey, -⟩, -⟩ := Statement.complete_of_validate hvalid
    cases hfault : k.faults.findSome? (· st) with
    | some failure =>
      have hrow : k.rowOf st = .error failure := by
        simp only [rowOf, hvalid, hfault]
        rfl
      rw [execute_of_error hrow]
    | none =>
      rw [execute_of_ok (rowOf_eq_ok.mpr ⟨hvalid, hfault, key, hkey, rfl⟩)]

theorem execute_failed {failure : StoreFailure} (h : (k.execute st).1 = .error failure) :
    (k.execute st).2 = { k with log := k.log ++ [st], failed := k.failed + 1 } := by
  cases hrow : k.rowOf st with
  | ok row =>
    rw [execute_of_ok hrow] at h
    cases h
  | error failure => rw [execute_of_error hrow]

section Fresh

variable (name : String) (history : History)

theorem faults_after : ((named name).after history).faults = history.faults := by
  induction history with
  | nil => rfl
  | cons op earlier ih =>
    cases op with
    | execute st => exact tell_faults.trans ih
    | addFault fault => rw [after, operate, addFault, ih, History.faults]
    | clearFaults => rfl
    | setOptions | setOptionOnAll | setReplication | clear => exact ih

theorem options_after : ((named name).after history).options = history.options := by
  induction history with
  | nil => rfl
  | cons op earlier ih =>
    cases op with
    | execute st => exact tell_options.trans ih
    | setOptions table changed => rw [after, operate, setOptions, ih, History.options]
    | setOptionOnAll key value => simp only [after, operate, setOptionOnAll, ih, History.options]
    | addFault | clearFaults | setReplication | clear => exact ih

theorem reply_after (st : Statement) :
    (((named name).after history).execute st).1 = history.reply st := by
  rw [execute_reply, faults_after, History.reply]

theorem rowOf_after {st : Statement} (h : history.reply st = .ok ()) :
    ∃ key, st.primaryKey? = some key ∧ ((named name).after history).rowOf st =
      .ok ⟨key, st.payload, (Execution.mk history st).ttl?⟩ := by
  rw [← reply_after name, ← applies_iff_ok, applies_iff] at h
  obtain ⟨row, hrow⟩ := h
  obtain ⟨-, -, key, hkey, rfl⟩ := rowOf_eq_ok.mp hrow
  refine ⟨key, hkey, hrow.trans ?_⟩
  have httl : ((named name).after history).defaultTtl? st.table =
      ((history.options.get st.table).defaultTtlSeconds st.table).toOption.filter (0 < ·) := by
    rw [defaultTtl?, options_after]
    cases (history.options.get st.table).defaultTtlSeconds st.table with
    | error failure => rfl
    | ok n => by_cases hn : 0 < n <;> simp [Except.toOption, Option.filter, hn]
  rw [httl]
  rfl

theorem tell_after (st : Statement) :
    let k := (named name).after history
    ((Execution.mk history st).succeeded = true ∧ ∃ key, st.primaryKey? = some key ∧
      (k.tell st).applied = k.applied + 1 ∧ (k.tell st).failed = k.failed ∧
      (k.tell st).rows = k.rows.set st.table
        ((k.rows.get st.table).upsert ⟨key, st.payload, (Execution.mk history st).ttl?⟩)) ∨
    ((Execution.mk history st).succeeded = false ∧
      k.tell st = { k with log := k.log ++ [st], failed := k.failed + 1 }) := by
  intro k
  cases hreply : history.reply st with
  | ok _ =>
    obtain ⟨key, hkey, hrow⟩ := rowOf_after name history hreply
    have hsucceeded : (Execution.mk history st).succeeded = true := by
      rw [Execution.succeeded, hreply]
      rfl
    refine .inl ⟨hsucceeded, key, hkey, ?_, ?_, rows_of_ok hrow⟩
    all_goals
      rw [tell, execute_of_ok hrow]
      rfl
  | error failure =>
    have hfailed : (Execution.mk history st).succeeded = false := by
      rw [Execution.succeeded, hreply]
      rfl
    exact .inr ⟨hfailed, execute_failed ((reply_after name history st).trans hreply)⟩

structure Counted (history : History) (k : Keyspace) : Prop where
  log : k.log = history.executions.reverse.map (·.statement)
  applied : k.applied = history.executions.countP (·.succeeded)
  failed : k.failed = history.executions.countP fun e => !e.succeeded

theorem counted_after : Counted history ((named name).after history) := by
  induction history with
  | nil => exact ⟨rfl, rfl, rfl⟩
  | cons op earlier ih =>
    cases op with
    | addFault | clearFaults | setOptions | setOptionOnAll | setReplication =>
      exact ⟨ih.log, ih.applied, ih.failed⟩
    | clear => exact ⟨rfl, rfl, rfl⟩
    | execute st =>
      have hexecutions : History.executions (.execute st :: earlier) =
          ⟨earlier, st⟩ :: History.executions earlier := rfl
      rw [after, operate]
      obtain ⟨hresult, key, -, happlied, hfailed, -⟩ | ⟨hresult, htell⟩ :=
        tell_after name earlier st
      · constructor <;>
          simp [hexecutions, hresult, happlied, hfailed, ih.log, ih.applied, ih.failed]
      · rw [htell]
        constructor <;> simp [hexecutions, hresult, ih.log, ih.applied, ih.failed]

/-- Under a key stands the row of the last success for it. -/
theorem get?_after (t : Table) (key : List Cell) :
    ((named name).after history).get? t key =
      (history.last? t key).map fun e => ⟨key, e.statement.payload, e.ttl?⟩ := by
  induction history with
  | nil => cases t <;> rfl
  | cons op earlier ih =>
    cases op with
    | addFault | clearFaults | setOptions | setOptionOnAll | setReplication => exact ih
    | clear => cases t <;> rfl
    | execute st =>
      have hlast : History.last? (.execute st :: earlier) t key =
          if (Execution.mk earlier st).succeeded && (Execution.mk earlier st).isUnder t key then
            some ⟨earlier, st⟩
          else History.last? earlier t key := by
        rw [History.last?, History.executions, List.find?_cons]
        cases (Execution.mk earlier st).succeeded && (Execution.mk earlier st).isUnder t key <;> rfl
      rw [after, operate, hlast]
      obtain ⟨hresult, own, hown, -, -, hrows⟩ | ⟨hresult, htell⟩ := tell_after name earlier st
      · have hunder : (Execution.mk earlier st).isUnder t key = decide (st.table = t ∧ own = key) := by
          simp only [Execution.isUnder, hown, Option.some.injEq]
        rw [get?, hrows, hresult, Bool.true_and, hunder, PerTable.get_set]
        by_cases ht : st.table = t
        · subst ht
          rw [if_pos rfl, Rows.find?_upsert]
          by_cases hkey : own = key
          · simp [hkey]
          · simpa [hkey, get?] using ih
        · simpa [ht, Ne.symm ht, get?] using ih
      · rw [htell, hresult, Bool.false_and, if_neg Bool.false_ne_true]
        exact ih

end Fresh

theorem sum_statementsFor (k : Keyspace) :
    Table.all.foldl (fun n t => n + (k.statementsFor t).length) 0 = k.log.length := by
  have hsum : ∀ sts : List Statement,
      Table.all.foldl (fun n t => n + (sts.filter (·.table = t)).length) 0 = sts.length := by
    intro sts
    induction sts with
    | nil => rfl
    | cons st sts ih =>
      rw [List.length_cons, ← ih]
      cases h : st.table <;> simp [Table.all, h] <;> omega
  exact hsum k.log

/-- After any operations on a new store: successes and failures add up to the statements in the
log, table by table. Each row stands under its own key in a table that is in order. Under a key
stands what the last success for it stored, with the expiry that was bound, or else with a positive
one of the table at that time. A statement is refused if it is incomplete, or else by the first
fault that meets it; if it fails, it is logged and counted alone. -/
theorem told_by_history (name : String) (history : History) :
    let k := (named name).after history
    (k.applied = history.executions.countP (·.succeeded) ∧ k.applied + k.failed = k.log.length ∧
      Table.all.foldl (fun n t => n + (k.statementsFor t).length) 0 = k.log.length ∧
      k.log = history.executions.reverse.map (·.statement)) ∧
    (∀ t, (k.rows.get t).toList.Pairwise (fun r s => compare r.key s.key = .lt) ∧
      ∀ row ∈ k.rows.get t,
        row.key.length = t.primaryKey.length ∧ k.get? t row.key = some row) ∧
    (∀ t key, k.get? t key =
      (history.last? t key).map fun e => ⟨key, e.statement.payload, e.ttl?⟩) ∧
    (∀ st, (k.execute st).1 = history.reply st ∧
      ∀ failure, (k.execute st).1 = .error failure →
        (k.execute st).2 = { k with log := k.log ++ [st], failed := k.failed + 1 }) ∧
    ∀ st : Statement, st.validate = .ok () →
      (∃ key, st.primaryKey? = some key ∧ key.length = st.table.primaryKey.length) ∧
        st.payload.map (·.1) = st.table.payload := by
  intro k
  have hcounted := counted_after name history
  have hcount : k.applied + k.failed = k.log.length := by
    rw [hcounted.applied, hcounted.failed, hcounted.log, List.length_map, List.length_reverse,
      List.length_eq_countP_add_countP Execution.succeeded]
    simp only [Bool.not_eq_true, Bool.decide_eq_false]
  refine ⟨⟨hcounted.applied, hcount, k.sum_statementsFor, hcounted.log⟩,
    fun t => ⟨(k.rows.get t).ordered, ?_⟩, get?_after name history,
    fun st => ⟨reply_after name history st, ?_⟩, fun st => Statement.complete_of_validate⟩
  · intro row hrow
    exact ⟨k.complete t row hrow, (Rows.find?_key row).mpr hrow⟩
  · exact fun failure hfailed => execute_failed hfailed

theorem after_append (k : Keyspace) (later earlier : History) :
    k.after (later ++ earlier) = (k.after earlier).after later := by
  induction later with
  | nil => rfl
  | cons op later ih => rw [List.cons_append, after, after, ih]

theorem after_executes (k : Keyspace) (sts : List Statement) :
    k.after (sts.map .execute).reverse = k.tellAll sts := by
  induction sts generalizing k with
  | nil => rfl
  | cons st sts ih =>
    rw [List.map_cons, List.reverse_cons, after_append]
    exact ih (k.tell st)

theorem after_addFaults (k : Keyspace) (faults : List Fault) :
    k.after (faults.map .addFault).reverse = { k with faults := k.faults ++ faults } := by
  induction faults generalizing k with
  | nil =>
    rw [List.append_nil]
    rfl
  | cons fault faults ih =>
    rw [List.map_cons, List.reverse_cons, after_append, ih]
    change { k with faults := k.faults ++ [fault] ++ faults } = _
    rw [List.append_assoc, List.singleton_append]

end Keyspace

namespace Service

def operations (s : Service) : Action → History
  | .setFaults faults => (faults.map .addFault).reverse ++ [.clearFaults]
  | .setOptions table options => [.setOptions table options]
  | a => ((s.told a).map .execute).reverse

def operationsOf (s : Service) : List Action → History
  | [] => []
  | a :: rest => (s.act a).operationsOf rest ++ s.operations a

variable {s : Service}

theorem after_told {a : Action} (sts : List Statement)
    (h : (s.act a).store = s.store.tellAll sts) :
    (s.act a).store = s.store.after ((s.told a).map .execute).reverse := by
  have htold : s.told a = sts := by rw [told, h, Keyspace.tellAll_log, List.drop_left]
  rw [htold, Keyspace.after_executes, h]

theorem act_store (s : Service) (a : Action) : (s.act a).store = s.store.after (s.operations a) := by
  have tended : Tending s (s.act a) → (s.act a).store = s.store.tellAll [] := by
    intro h
    obtain ⟨_, _, _, _, hact⟩ := h.frame
    rw [hact, Keyspace.tellAll_nil]
  cases a with
  | setFaults faults =>
    rw [operations, Keyspace.after_append, Keyspace.after_addFaults]
    rfl
  | setOptions table options => rfl
  | hire | look worker | setClock now => exact after_told [] rfl
  | advance i place => exact after_told [] (tended (tending_advance s i place))
  | observe i => exact after_told [] (tended (tending_observe i s))
  | drop i => exact after_told [] (tended (tending_drop s i))
  | settleAlone i => exact after_told [] (tended (tending_settleAlone s i))
  | accept worker spans =>
    cases h : s.workers[worker]? with
    | none => exact after_told [] (by rw [act, accept_of_none h, Keyspace.tellAll_nil])
    | some marks => exact after_told _ (accept_store h spans)
  | resolve fate ticket =>
    cases h : s.heldUnder? ticket with
    | none => exact after_told [] (by rw [act, resolveUnder_of_none h, Keyspace.tellAll_nil])
    | some held =>
      obtain ⟨-, rfl⟩ := mem_held_of_heldUnder? h
      cases fate with
      | released => exact after_told [held.2] (by rw [act, resolveUnder_of_some h]; rfl)
      | abandoned => exact after_told [] (by rw [act, resolveUnder_of_some h]; rfl)

theorem run_store (s : Service) (actions : List Action) :
    (s.run actions).store = s.store.after (s.operationsOf actions) := by
  induction actions generalizing s with
  | nil => rfl
  | cons a rest ih => rw [run_cons, ih, act_store, operationsOf, Keyspace.after_append]

end Service

end TraceIndex
