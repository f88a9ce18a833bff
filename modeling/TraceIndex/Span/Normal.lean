import TraceIndex.Span.Basic

namespace TraceIndex.Span

def byTime (events : List Event) : List Event :=
  events.mergeSort fun a b => a.time ≤ b.time

def timeOf? (event : String) (events : List Event) : Option Int64 :=
  (events.find? (·.value = event)).map (·.time)

def clientDuration? (events : List Event) : Option Int64 := do
  let sent ← timeOf? clientSend events
  let received ← timeOf? clientReceive events
  return received - sent

/-- The duration that two or more events in order of time tell, if it is positive. -/
def derivedDuration? : List Event → Option Int64
  | first :: second :: rest =>
    let spread := ((second :: rest).getLast (by simp)).time - first.time
    let duration := (clientDuration? (first :: second :: rest)).getD spread
    if 0 < duration then some duration else none
  | _ => none

/-- The span with its events in order of time, and with the timestamp and duration that they
tell where it has none of its own. -/
def normalize (s : Span) : Span :=
  let events := byTime s.events
  { s with
    events
    timestamp := s.timestamp <|> (events.head?.map (·.time))
    duration := s.duration <|> derivedDuration? events }

end TraceIndex.Span
