import TraceIndex.Text.Utf8
import TraceIndex.Text.Lowercase

namespace TraceIndex

structure Endpoint where
  service : String
  ipv4 : UInt32
  port : Option UInt16
  deriving DecidableEq, Repr

def Endpoint.of (service : String) (ipv4 : UInt32) (port : Option UInt16) : Endpoint :=
  ⟨Text.lowercase service, ipv4, port⟩

def Endpoint.named (service : String) : Endpoint := .of service 0 none

structure Event where
  time : Int64
  value : String
  endpoint : Option Endpoint
  deriving DecidableEq, Repr

inductive TagKind
  | bool | bytes | i16 | i32 | i64 | double | string
  deriving DecidableEq, Repr

namespace TagKind

def all : List TagKind := [bool, bytes, i16, i32, i64, double, string]

def code : TagKind → UInt8
  | bool => 0
  | bytes => 1
  | i16 => 2
  | i32 => 3
  | i64 => 4
  | double => 5
  | string => 6

def name : TagKind → String
  | bool => "BOOL"
  | bytes => "BYTES"
  | i16 => "I16"
  | i32 => "I32"
  | i64 => "I64"
  | double => "DOUBLE"
  | string => "STRING"

def ofName? (name : String) : Option TagKind := all.find? (·.name = name)

def ofCode? (code : Nat) : Option TagKind := all[code]?

end TagKind

/-- A key with a value, which `kind` says how to read. -/
structure Tag where
  key : String
  value : Bytes
  kind : TagKind
  endpoint : Option Endpoint
  deriving DecidableEq, Repr

def Tag.string (key value : String) (endpoint : Option Endpoint) : Tag :=
  ⟨key, Utf8.encode value, .string, endpoint⟩

/-- One timed operation of a trace. -/
structure Span where
  traceId : UInt64
  id : UInt64
  parentId : Option UInt64
  name : String
  timestamp : Option Int64
  duration : Option Int64
  events : List Event
  tags : List Tag
  deriving DecidableEq, Repr

namespace Span

def endpoints (s : Span) : List Endpoint :=
  s.events.filterMap (·.endpoint) ++ s.tags.filterMap (·.endpoint)

def clientSend : String := "cs"

def clientReceive : String := "cr"

/-- The events that every span has by its place in a call. -/
def coreEvents : List String :=
  [clientSend, clientReceive, "ss", "sr", "ws", "wr", "csf", "crf", "ssf", "srf"]

end Span

end TraceIndex
