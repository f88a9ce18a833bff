import TraceIndex.Text.Decimal
import TraceIndex.Text.Utf8

namespace TraceIndex

/-- A value of the notation. Numbers are kept as they are written, and so is what stands between
the quotes of a string. -/
inductive Json
  | null
  | bool (b : Bool)
  | number (literal : Bytes)
  | string (inside : Bytes)
  | array (items : List Json)
  | object (members : List (Bytes × Json))

namespace Json

@[match_pattern] abbrev quote : UInt8 := 0x22
@[match_pattern] abbrev backslash : UInt8 := 0x5C
@[match_pattern] abbrev comma : UInt8 := 0x2C
@[match_pattern] abbrev colon : UInt8 := 0x3A
@[match_pattern] abbrev openBracket : UInt8 := 0x5B
@[match_pattern] abbrev closeBracket : UInt8 := 0x5D
@[match_pattern] abbrev openBrace : UInt8 := 0x7B
@[match_pattern] abbrev closeBrace : UInt8 := 0x7D
@[match_pattern] abbrev minus : UInt8 := 0x2D
@[match_pattern] abbrev plus : UInt8 := 0x2B
@[match_pattern] abbrev point : UInt8 := 0x2E
@[match_pattern] abbrev zero : UInt8 := 0x30
@[match_pattern] abbrev letterU : UInt8 := 0x75

def ascii (s : String) : Bytes := Utf8.encode s

mutual

def print : Json → Bytes
  | null => ascii "null"
  | bool true => ascii "true"
  | bool false => ascii "false"
  | number literal => literal
  | string inside => quote :: inside ++ [quote]
  | array items => openBracket :: printItems items ++ [closeBracket]
  | object members => openBrace :: printMembers members ++ [closeBrace]

def printItems : List Json → Bytes
  | [] => []
  | [v] => print v
  | v :: w :: rest => print v ++ comma :: printItems (w :: rest)

def printMembers : List (Bytes × Json) → Bytes
  | [] => []
  | [(k, v)] => quote :: k ++ quote :: colon :: print v
  | (k, v) :: m :: rest => quote :: k ++ quote :: colon :: print v ++ comma :: printMembers (m :: rest)

end

def shortEscapes : List (UInt8 × UInt8) :=
  [(0x22, 0x22), (0x5C, 0x5C), (0x08, 0x62), (0x0C, 0x66), (0x0A, 0x6E), (0x0D, 0x72), (0x09, 0x74)]

def escapeByte (b : UInt8) : Bytes :=
  match shortEscapes.lookup b with
  | some letter => [backslash, letter]
  | none =>
    if b < 0x20 then backslash :: letterU :: zero :: zero :: ascii (Bytes.hex [b])
    else [b]

def escape (s : String) : Bytes := (Utf8.encode s).flatMap escapeByte

def unescapeLetter? (letter : UInt8) : Option UInt8 :=
  if letter = 0x2F then some 0x2F
  else (shortEscapes.find? (·.2 = letter)).map (·.1)

def hexValue? (b : UInt8) : Option Nat := Bytes.hexValue? (Char.ofNat b.toNat)

def unit? (a b c d : UInt8) : Option Nat := do
  return (((← hexValue? a) * 16 + (← hexValue? b)) * 16 + (← hexValue? c)) * 16 + (← hexValue? d)

def isHighSurrogate (n : Nat) : Bool := 0xD800 ≤ n && n < 0xDC00

def isLowSurrogate (n : Nat) : Bool := 0xDC00 ≤ n && n < 0xE000

def fromSurrogates (high low : Nat) : Char :=
  Char.ofNat (0x10000 + (high - 0xD800) * 0x400 + (low - 0xDC00))

/-- What stands between quotes, with its escapes resolved. Surrogates stand only in pairs. -/
def unescape? : Bytes → Option Bytes
  | [] => some []
  | backslash :: letterU :: a :: b :: c :: d :: rest =>
    match unit? a b c d with
    | none => none
    | some high =>
      if isHighSurrogate high then
        match rest with
        | backslash :: letterU :: a :: b :: c :: d :: rest =>
          match unit? a b c d with
          | none => none
          | some low =>
            if isLowSurrogate low then
              (unescape? rest).map (String.utf8EncodeChar (fromSurrogates high low) ++ ·)
            else none
        | _ => none
      else if isLowSurrogate high then none
      else (unescape? rest).map (String.utf8EncodeChar (Char.ofNat high) ++ ·)
  | backslash :: letter :: rest =>
    match unescapeLetter? letter with
    | none => none
    | some b => (unescape? rest).map (b :: ·)
  | b :: rest => (unescape? rest).map (b :: ·)

def stringText? (inside : Bytes) : Option String := (unescape? inside).bind Utf8.decode?

/-- The integer that a number is, if it is written as one: a zero has no sign. -/
def integerOf? (literal : Bytes) : Option Int :=
  let digits? (bytes : Bytes) := Text.digits? (bytes.map fun b => Char.ofNat b.toNat)
  match literal with
  | minus :: digits => (digits? digits).bind fun n => if n = 0 then none else some (-(n : Int))
  | _ => (digits? literal).map fun n => (n : Int)

end Json

end TraceIndex
