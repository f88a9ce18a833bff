import TraceIndex.Store.Keyspace

namespace TraceIndex

theorem toOption_eq_some {ε α : Type} {r : Except ε α} {a : α} :
    r.toOption = some a ↔ r = .ok a := by
  cases r <;> simp [Except.toOption]

namespace Keyspace

def tell (k : Keyspace) (st : Statement) : Keyspace := (k.execute st).2

def tellAll (k : Keyspace) (sts : List Statement) : Keyspace := sts.foldl tell k

def applies (k : Keyspace) (st : Statement) : Bool := (k.execute st).1.isOk

variable {k : Keyspace} {st : Statement} {sts : List Statement} {row : Row}

theorem execute_of_ok (h : k.rowOf st = .ok row) :
    k.execute st =
      (.ok (), { k with log := k.log ++ [st] }.store st.table row (length_of_rowOf h)) := by
  rw [execute]
  split
  · rename_i row' h'
    obtain rfl : row = row' := Except.ok.inj (h.symm.trans h')
    rfl
  · rename_i failure h'
    cases h.symm.trans h'

theorem execute_of_error {failure : StoreFailure} (h : k.rowOf st = .error failure) :
    k.execute st = (.error failure, { k with log := k.log ++ [st], failed := k.failed + 1 }) := by
  rw [execute]
  split
  · rename_i row h'
    cases h.symm.trans h'
  · rename_i failure' h'
    obtain rfl : failure = failure' := Except.error.inj (h.symm.trans h')
    rfl

theorem applies_iff : k.applies st ↔ ∃ row, k.rowOf st = .ok row := by
  cases h : k.rowOf st with
  | ok row => simp [applies, execute_of_ok h, Except.isOk, Except.toBool]
  | error failure => simp [applies, execute_of_error h, Except.isOk, Except.toBool]

theorem applies_iff_ok : k.applies st ↔ (k.execute st).1 = .ok () := by
  cases h : (k.execute st).1 <;> simp [applies, h, Except.isOk, Except.toBool]

theorem tell_frame : (k.tell st).log = k.log ++ [st] ∧ (k.tell st).options = k.options ∧
    (k.tell st).faults = k.faults := by
  cases h : k.rowOf st with
  | ok row =>
    rw [tell, execute_of_ok h]
    exact ⟨rfl, rfl, rfl⟩
  | error failure =>
    rw [tell, execute_of_error h]
    exact ⟨rfl, rfl, rfl⟩

@[simp] theorem tell_log : (k.tell st).log = k.log ++ [st] := tell_frame.1

@[simp] theorem tell_options : (k.tell st).options = k.options := tell_frame.2.1

@[simp] theorem tell_faults : (k.tell st).faults = k.faults := tell_frame.2.2

theorem rows_of_ok (h : k.rowOf st = .ok row) :
    (k.tell st).rows = k.rows.set st.table ((k.rows.get st.table).upsert row) := by
  rw [tell, execute_of_ok h]
  rfl

theorem rows_of_error {failure : StoreFailure} (h : k.rowOf st = .error failure) :
    (k.tell st).rows = k.rows := by
  rw [tell, execute_of_error h]

/-- What a statement would store depends on the options and faults alone. -/
theorem rowOf_congr {k k' : Keyspace} (ho : k.options = k'.options) (hf : k.faults = k'.faults) :
    k.rowOf = k'.rowOf := by
  funext st
  simp only [rowOf, defaultTtl?, ho, hf]

theorem reply_congr {k k' : Keyspace} (ho : k.options = k'.options) (hf : k.faults = k'.faults)
    (st : Statement) : (k.execute st).1 = (k'.execute st).1 := by
  have h := congrFun (rowOf_congr ho hf) st
  cases hr : k.rowOf st with
  | ok row => rw [execute_of_ok hr, execute_of_ok (h ▸ hr)]
  | error failure => rw [execute_of_error hr, execute_of_error (h ▸ hr)]

@[simp] theorem tellAll_nil : k.tellAll [] = k := rfl

@[simp] theorem tellAll_cons : k.tellAll (st :: sts) = (k.tell st).tellAll sts := rfl

@[simp] theorem tellAll_log : (k.tellAll sts).log = k.log ++ sts := by
  induction sts generalizing k with
  | nil => simp
  | cons st sts ih => simp [ih]

@[simp] theorem tellAll_options : (k.tellAll sts).options = k.options := by
  induction sts generalizing k with
  | nil => rfl
  | cons st sts ih => simp [ih]

@[simp] theorem tellAll_faults : (k.tellAll sts).faults = k.faults := by
  induction sts generalizing k with
  | nil => rfl
  | cons st sts ih => simp [ih]

end Keyspace

end TraceIndex
