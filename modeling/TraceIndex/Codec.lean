import TraceIndex.Failure
import TraceIndex.Json.Form
import TraceIndex.Json.Reader
import TraceIndex.Packed.Form
import TraceIndex.Packed.Reader
import TraceIndex.Span.Form

namespace TraceIndex

structure Codec where
  name : String
  encode : Span → Except Failure Bytes
  decode : Bytes → Except Failure Span
  encodeList : List Span → Except Failure Bytes
  decodeList : Bytes → Except Failure (List Span)

namespace Codec

def orFailure {α : Type} (name : String) : Option α → Except Failure α
  | some a => .ok a
  | none => .error (.codec ("no span in " ++ name))

def ofForm {α : Type} (name : String) (F : Form α) (print : α → Bytes)
    (parse? : Bytes → Option α) : Codec where
  name
  encode s := .ok (print (s.write F))
  decode bytes := orFailure name ((parse? bytes).bind (Span.read? F))
  encodeList ss := .ok (print (Span.writeList F ss))
  decodeList bytes := orFailure name ((parse? bytes).bind (Span.readList? F))

def json : Codec := ofForm "json" Json.form Json.print Json.parse?

def msgpack : Codec := ofForm "msgpack" Packed.form Packed.print Packed.parse?

end Codec

end TraceIndex
