namespace TraceIndex

/-- A way to write data down and to read it back. `fields?` takes a record apart into the values of
named fields, of which a record without names must hold at least the given number; `choice?`
tells which of some names a value picks. -/
structure Form (α : Type) where
  null : α
  integer : Int → α
  text : String → α
  list : List α → α
  record : List (String × α) → α
  isNull : α → Bool
  integer? : α → Option Int
  text? : α → Option String
  list? : α → Option (List α)
  fields? : List String → Nat → α → Option (List (Option α))
  choice? : List String → α → Option Nat

namespace Form

variable {α : Type}

/-- One member put into the slot of its field. No slot is filled twice; a member of no field is
left out. -/
def place (slots : List (Option α)) (m : Option Nat × α) : Option (List (Option α)) :=
  match m.1 with
  | none => some slots
  | some i =>
    match slots[i]? with
    | some none => some (slots.set i (some m.2))
    | _ => none

def ofMembers? (n : Nat) (members : List (Option Nat × α)) : Option (List (Option α)) :=
  members.foldlM place (List.replicate n none)

/-- The slots of so many fields, filled in order. The last ones may stay empty. -/
def ofItems? (n least : Nat) (items : List α) : Option (List (Option α)) :=
  if least ≤ items.length ∧ items.length ≤ n then
    some (items.map some ++ List.replicate (n - items.length) none)
  else none

def between? (F : Form α) (low high : Int) (a : α) : Option Int :=
  (F.integer? a).filter fun n => low ≤ n && n < high

def optional? {β : Type} (F : Form α) (read : α → Option β) : Option α → Option (Option β)
  | none => some none
  | some a => if F.isNull a then some none else (read a).map some

def orNull {β : Type} (F : Form α) (write : β → α) : Option β → α
  | none => F.null
  | some b => write b

end Form

end TraceIndex
