import TraceIndex.Data.Form
import TraceIndex.Span.Basic

namespace TraceIndex

variable {α : Type}

namespace Form

def byte? (F : Form α) (a : α) : Option UInt8 := (F.between? 0 UInt8.size a).map UInt8.ofInt
def port? (F : Form α) (a : α) : Option UInt16 := (F.between? 0 UInt16.size a).map UInt16.ofInt
def address? (F : Form α) (a : α) : Option UInt32 := (F.between? 0 UInt32.size a).map UInt32.ofInt
def id? (F : Form α) (a : α) : Option UInt64 := (F.between? 0 UInt64.size a).map UInt64.ofInt

def time? (F : Form α) (a : α) : Option Int64 :=
  (F.between? (-0x8000000000000000) 0x8000000000000000 a).map Int64.ofInt

def id (F : Form α) (n : UInt64) : α := F.integer n.toNat
def time (F : Form α) (n : Int64) : α := F.integer n.toInt

def listOrEmpty? {β : Type} (F : Form α) (read : α → Option β) : Option α → Option (List β)
  | none => some []
  | some a => do (← F.list? a).mapM read

end Form

namespace Endpoint

def fields : List String := ["service_name", "ipv4", "port"]

def write (F : Form α) (e : Endpoint) : α :=
  F.record [("service_name", F.text e.service), ("ipv4", F.integer e.ipv4.toNat),
    ("port", F.orNull (fun p => F.integer p.toNat) e.port)]

def read? (F : Form α) (a : α) : Option Endpoint := do
  match ← F.fields? fields 3 a with
  | [service, ipv4, port] =>
    return {
      service := ← F.text? (← service)
      ipv4 := ← F.address? (← ipv4)
      port := ← F.optional? F.port? port }
  | _ => none

end Endpoint

namespace Event

def fields : List String := ["timestamp", "value", "endpoint"]

def write (F : Form α) (e : Event) : α :=
  F.record [("timestamp", F.time e.time), ("value", F.text e.value),
    ("endpoint", F.orNull (Endpoint.write F) e.endpoint)]

def read? (F : Form α) (a : α) : Option Event := do
  match ← F.fields? fields 3 a with
  | [time, value, endpoint] =>
    return {
      time := ← F.time? (← time)
      value := ← F.text? (← value)
      endpoint := ← F.optional? (Endpoint.read? F) endpoint }
  | _ => none

end Event

namespace Tag

def fields : List String := ["key", "value", "annotation_type", "endpoint"]

def writeValue (F : Form α) (bytes : Bytes) : α :=
  F.list (bytes.map fun b => F.integer b.toNat)

def readValue? (F : Form α) (a : α) : Option Bytes := do (← F.list? a).mapM F.byte?

def readKind? (F : Form α) (a : α) : Option TagKind :=
  (F.choice? (TagKind.all.map (·.name)) a).bind TagKind.ofCode?

def write (F : Form α) (t : Tag) : α :=
  F.record [("key", F.text t.key), ("value", writeValue F t.value),
    ("annotation_type", F.text t.kind.name), ("endpoint", F.orNull (Endpoint.write F) t.endpoint)]

def read? (F : Form α) (a : α) : Option Tag := do
  match ← F.fields? fields 4 a with
  | [key, value, kind, endpoint] =>
    return {
      key := ← F.text? (← key)
      value := ← readValue? F (← value)
      kind := ← readKind? F (← kind)
      endpoint := ← F.optional? (Endpoint.read? F) endpoint }
  | _ => none

end Tag

namespace Span

def fields : List String :=
  ["trace_id", "id", "parent_id", "name", "timestamp", "duration", "annotations",
    "binary_annotations"]

def write (F : Form α) (s : Span) : α :=
  F.record [("trace_id", F.id s.traceId), ("id", F.id s.id),
    ("parent_id", F.orNull F.id s.parentId), ("name", F.text s.name),
    ("timestamp", F.orNull F.time s.timestamp), ("duration", F.orNull F.time s.duration),
    ("annotations", F.list (s.events.map (Event.write F))),
    ("binary_annotations", F.list (s.tags.map (Tag.write F)))]

def read? (F : Form α) (a : α) : Option Span := do
  match ← F.fields? fields 6 a with
  | [traceId, id, parentId, name, timestamp, duration, events, tags] =>
    return {
      traceId := ← F.id? (← traceId)
      id := ← F.id? (← id)
      parentId := ← F.optional? F.id? parentId
      name := ← F.text? (← name)
      timestamp := ← F.optional? F.time? timestamp
      duration := ← F.optional? F.time? duration
      events := ← F.listOrEmpty? (Event.read? F) events
      tags := ← F.listOrEmpty? (Tag.read? F) tags }
  | _ => none

def writeList (F : Form α) (spans : List Span) : α := F.list (spans.map (write F))

def readList? (F : Form α) (a : α) : Option (List Span) := do (← F.list? a).mapM (read? F)

end Span

end TraceIndex
