import TraceIndex.Text.CaseTable

namespace TraceIndex.Text

def CaseRun.contains (r : CaseRun) (n : Nat) : Bool :=
  r.first ≤ n && n ≤ r.last && (n - r.first) % r.stride == 0

def CaseRun.lower (r : CaseRun) (n : Nat) : Nat := r.target + (n - r.first)

/-- The lowercase form of a character by itself, which is one character for all but the capital
I with a dot. -/
def lowerAlone (c : Char) : List Char :=
  if c.toNat < 0x80 then [c.toLower]
  else if c = 'İ' then ['i', '\u0307']
  else
    match caseRuns.find? (·.contains c.toNat) with
    | some r => [Char.ofNat (r.lower c.toNat)]
    | none => [c]

def isCased (c : Char) : Bool := inRanges casedRanges c

def isCaseIgnorable (c : Char) : Bool := inRanges caseIgnorableRanges c

def meetsCased (cs : List Char) : Bool := (cs.dropWhile isCaseIgnorable).head?.any isCased

/-- A capital sigma between the characters before it, nearest first, and those after it. At the
end of a word it has a form of its own. -/
def lowerSigma (before after : List Char) : Char :=
  if meetsCased before && !meetsCased after then 'ς' else 'σ'

/-- Lowercase forms of the second list, where the first holds what stands before it, nearest
first. -/
def lowerChars (before : List Char) : List Char → List Char
  | [] => []
  | c :: rest =>
    (if c = 'Σ' then [lowerSigma before rest] else lowerAlone c) ++ lowerChars (c :: before) rest

def lowercase (s : String) : String := String.ofList (lowerChars [] s.toList)

end TraceIndex.Text
