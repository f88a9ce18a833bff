import TraceIndex.Text.PrintTable

namespace TraceIndex.Text

/-- Letters of Hangul that only fill a place, and show nothing. -/
def fillerRanges : List (Nat × Nat) := [(0x115F, 0x1160), (0x3164, 0x3164), (0xFFA0, 0xFFA0)]

/-- The sound marks of halfwidth katakana join the character before them, and yet take a place of
their own. -/
def isSpacingMark (c : Char) : Bool := c = 'ﾞ' || c = 'ﾟ'

def isJoining (c : Char) : Bool := inRanges graphemeExtendRanges c && !isSpacingMark c

def isVisible (c : Char) : Bool :=
  !inRanges unprintableRanges c && !inRanges fillerRanges c && !isJoining c

def codePoint (c : Char) : List Char :=
  ['\\', 'u', '\x7b'] ++ Nat.toDigits 16 c.toNat ++ ['\x7d']

def quotedChar (c : Char) : List Char :=
  if c = '\x00' then ['\\', '0']
  else if c = '\t' then ['\\', 't']
  else if c = '\r' then ['\\', 'r']
  else if c = '\n' then ['\\', 'n']
  else if c = '"' ∨ c = '\\' then ['\\', c]
  else if isVisible c then [c]
  else codePoint c

/-- The text between double quotes, with every character visible. -/
def quoted (s : String) : String :=
  String.ofList ('"' :: s.toList.flatMap quotedChar ++ ['"'])

end TraceIndex.Text
