import TraceIndex.Span.Basic

namespace TraceIndex.Layout

/-- The length comes first, so that no two lists of texts are laid out alike. -/
def text (s : String) : Bytes :=
  let bytes := Utf8.encode s
  Bytes.little 4 bytes.length ++ bytes

def endpoint : Option Endpoint → Bytes
  | none => [0]
  | some e =>
    1 :: text e.service ++ Bytes.little 4 e.ipv4.toNat ++
      match e.port with
      | none => [0]
      | some p => 1 :: Bytes.little 2 p.toNat

def event (e : Event) : Bytes :=
  Bytes.little 8 e.time.toUInt64.toNat ++ text e.value ++ endpoint e.endpoint

def events (es : List Event) : Bytes := Bytes.little 4 es.length ++ es.flatMap event

def tag (t : Tag) : Bytes :=
  text t.key ++ Bytes.little 4 t.value.length ++ t.value ++ [t.kind.code] ++ endpoint t.endpoint

def tags (ts : List Tag) : Bytes := Bytes.little 4 ts.length ++ ts.flatMap tag

end TraceIndex.Layout
