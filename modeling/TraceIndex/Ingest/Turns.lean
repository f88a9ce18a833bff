import TraceIndex.Ingest.Service

namespace TraceIndex

/-- Batches take turns to look at replies that arrived together. A line holds those whose turn is
still to come, the next one first, and those that are put off, the latest first. These come back at
the end of the round, after `left` more turns, or when nobody else is in line. -/
structure Line where
  next : List Nat
  putOff : List Nat
  left : Nat
  deriving DecidableEq, Repr

namespace Line

/-- Those put off come back after so many turns at the latest. -/
def turnsInRound : Nat := 61

def ofList (order : List Nat) : Line := ⟨order, [], turnsInRound⟩

/-- Those put off stand in line again, behind the others, and a round begins. A batch stands in
line only once. -/
def callBack (l : Line) : Line := ofList (l.next ++ l.putOff.filter (· ∉ l.next))

def pop? (l : Line) : Option (Nat × Line) :=
  let l := if l.next = [] ∨ l.left = 0 then l.callBack else l
  match l.next with
  | [] => none
  | i :: rest => some (i, { l with next := rest, left := l.left - 1 })

def join (l : Line) (i : Nat) : Line := { l with next := l.next ++ [i] }

/-- Where a batch goes after its turn. One that failed in it stands in line for what it left. One
with replies left is put off; it stands in line as well, for a turn that it lets pass unless it was
called back before. -/
def leave (l : Line) (i : Nat) (before after : Batch) : Line :=
  if before.failsBy after then
    if after.outstanding.isEmpty then l else l.join i
  else if after.ready.isEmpty then l
  else { l.join i with putOff := i :: l.putOff }

end Line

def Batch.leave (before after : Batch) : Batch :=
  if before.failsBy after then after else { after with ready := after.ready.reverse }

namespace Service

/-- The room in a turn. Writes that never had to wait for a reply take none of it. -/
def repliesInTurn : Nat := 128

/-- What a batch looks at in a turn: the replies up to the first failure, or all of them if it has
failed before, so far as there is room. -/
def turn (i : Nat) (s : Service) : Service :=
  let n := min (s.readyCount i) repliesInTurn
  if s.hasFailed i then Nat.repeat (observe i) n s else observeUntilFailure i n s

def step (i : Nat) (l : Line) (s : Service) : Line × Service :=
  if i ∈ l.putOff then (l, s)
  else
    let t := s.turn i
    match s.batches[i]?, t.batches[i]? with
    | some before, some after => (l.leave i before after, t.setBatch i (before.leave after))
    | _, _ => (l, t)

def takeTurns : Nat → Line → Service → Service
  | 0, _, s => s
  | n + 1, l, s =>
    match l.pop? with
    | none => s
    | some (i, l) =>
      let (l, s) := s.step i l
      takeTurns n l s

/-- Enough turns for all: a turn looks at a reply, or begins a batch's rest, or is let pass by a
batch that looked at replies in the turn before. -/
def turnsNeeded (s : Service) (order : List Nat) : Nat :=
  2 * (order.length + (order.map s.readyCount).foldl (· + ·) 0)

/-- Batches take turns until none of them has a reply to look at. The last look at each leaves none
behind, whatever the number of turns. -/
def settleAll (order : List Nat) (s : Service) : Service :=
  order.foldl (fun s i => s.settle i) (takeTurns (s.turnsNeeded order) (.ofList order) s)

end Service

end TraceIndex
