import TraceIndex.Data.Form
import TraceIndex.Json.Basic

namespace TraceIndex.Json

def integer (n : Int) : Json := number (ascii (Text.decimal n))

def text (s : String) : Json := string (escape s)

def record (members : List (String × Json)) : Json := object (members.map fun m => (escape m.1, m.2))

def isNull : Json → Bool
  | null => true
  | _ => false

def integer? : Json → Option Int
  | number literal => integerOf? literal
  | _ => none

def text? : Json → Option String
  | string inside => stringText? inside
  | _ => none

def list? : Json → Option (List Json)
  | array items => some items
  | _ => none

def member? (names : List String) (m : Bytes × Json) : Option (Option Nat × Json) := do
  let key ← stringText? m.1
  return (names.idxOf? key, m.2)

def fields? (names : List String) (least : Nat) : Json → Option (List (Option Json))
  | object members => do Form.ofMembers? names.length (← members.mapM (member? names))
  | array items => Form.ofItems? names.length least items
  | _ => none

/-- A name is picked by itself, or as the only member of an object, without a value. -/
def choice? (names : List String) : Json → Option Nat
  | string inside => (stringText? inside).bind (names.idxOf? ·)
  | object [(key, null)] => (stringText? key).bind (names.idxOf? ·)
  | _ => none

def form : Form Json where
  null := null
  integer := integer
  text := text
  list := array
  record := record
  isNull := isNull
  integer? := integer?
  text? := text?
  list? := list?
  fields? := fields?
  choice? := choice?

end TraceIndex.Json
