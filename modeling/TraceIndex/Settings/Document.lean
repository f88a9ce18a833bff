import TraceIndex.Settings.Basic
import TraceIndex.Settings.Toml
import TraceIndex.Text.Utf8

namespace TraceIndex.Settings

def overlay? (s : Settings) (pair : String × Int) : Option Settings := do
  let f ← Field.ofName? pair.1
  s.set? f pair.2

/-- The settings that a document gives; what it does not name has its default. No key may stand
twice. -/
def parse? (cs : List Char) : Option Settings := do
  let pairs ← Toml.pairs? cs
  if (pairs.map (·.1)).Nodup then pairs.foldlM overlay? {} else none

def ofText (text : String) : Except Problem Settings :=
  match parse? text.toList with
  | some s => s.validate
  | none => .error .malformed

def ofFile (bytes : Option Bytes) : Except Problem Settings :=
  match bytes.bind Utf8.decode? with
  | some text => ofText text
  | none => .error .unreadable

/-- A document that names every field; `none` where a value is too great for one. -/
def render? (s : Settings) : Option String :=
  Toml.render? (Field.all.map fun f => (f.name, s.get f))

end TraceIndex.Settings
