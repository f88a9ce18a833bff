import TraceIndex.Digest
import TraceIndex.Span.Layout
import TraceIndex.Text.Decimal

namespace TraceIndex

/-- The lowercase name of an endpoint's service, unless it is empty. -/
def Endpoint.service? (e : Endpoint) : Option String :=
  let name := Text.lowercase e.service
  if name.isEmpty then none else some name

namespace Span

def dropRepeats : List String → List String
  | a :: b :: rest => if a = b then dropRepeats (b :: rest) else a :: dropRepeats (b :: rest)
  | rest => rest

/-- The services of the endpoints, in order and each once. -/
def services (s : Span) : List String :=
  dropRepeats ((s.endpoints.filterMap (·.service?)).mergeSort fun a b => a ≤ b)

def eventKey? (e : Event) : Option String :=
  if e.value ∈ coreEvents then none
  else do
    let service ← e.endpoint.bind (·.service?)
    return service ++ ":" ++ e.value

/-- A tag is found by its key and, if its value is text, by its key and value. -/
def tagKeys (t : Tag) : List String :=
  match t.endpoint.bind (·.service?) with
  | none => []
  | some service =>
    let key := service ++ ":" ++ t.key
    if t.kind = .string then [key, key ++ ":" ++ Utf8.lossy t.value] else [key]

def firstAppearances (keys : List String) : List String :=
  (keys.foldl (fun seen k => if k ∈ seen then seen else k :: seen) []).reverse

def annotationKeys (s : Span) : List String :=
  firstAppearances (s.events.filterMap eventKey? ++ s.tags.flatMap tagKeys)

def eventsHash (s : Span) : UInt64 := Digest.xxh3 (Layout.events s.events)

def tagsHash (s : Span) : UInt64 := Digest.xxh3 (Layout.tags s.tags)

/-- Tells apart the reports of one span that differ in their events or tags. -/
def uniquenessKey (s : Span) : String :=
  Text.decimal s.id.toNat ++ "_" ++ Text.decimal s.eventsHash.toNat ++ "_" ++
    Text.decimal s.tagsHash.toNat

end Span

end TraceIndex
