import TraceIndex.Json.Basic

namespace TraceIndex.Json

def isBlank (b : UInt8) : Bool := b = 0x20 || b = 0x09 || b = 0x0A || b = 0x0D

def skipBlanks (bytes : Bytes) : Bytes := bytes.dropWhile isBlank

def isDigit (b : UInt8) : Bool := 0x30 ≤ b && b ≤ 0x39

/-- What stands before the closing quote, and what follows it. Whether the escapes name
characters is left open here. -/
def inside? (seen : Bytes) : Bytes → Option (Bytes × Bytes)
  | [] => none
  | quote :: rest => some (seen.reverse, rest)
  | backslash :: letterU :: a :: b :: c :: d :: rest =>
    match unit? a b c d with
    | none => none
    | some _ => inside? (d :: c :: b :: a :: letterU :: backslash :: seen) rest
  | backslash :: letter :: rest =>
    match unescapeLetter? letter with
    | none => none
    | some _ => inside? (letter :: backslash :: seen) rest
  | b :: rest => if b < 0x20 then none else inside? (b :: seen) rest

def digits? (bytes : Bytes) : Option (Bytes × Bytes) :=
  let run := bytes.takeWhile isDigit
  if run.isEmpty then none else some (run, bytes.dropWhile isDigit)

def integerPart? (bytes : Bytes) : Option (Bytes × Bytes) :=
  match bytes with
  | zero :: rest => some ([zero], rest)
  | _ => digits? bytes

def fraction? (bytes : Bytes) : Option (Bytes × Bytes) :=
  match bytes with
  | point :: rest => (digits? rest).map fun r => (point :: r.1, r.2)
  | _ => some ([], bytes)

def exponent? (bytes : Bytes) : Option (Bytes × Bytes) :=
  match bytes with
  | e :: rest =>
    if e = 0x65 ∨ e = 0x45 then
      match rest with
      | s :: digits =>
        if s = plus ∨ s = minus then (digits? digits).map fun r => (e :: s :: r.1, r.2)
        else (digits? rest).map fun r => (e :: r.1, r.2)
      | [] => none
    else some ([], bytes)
  | [] => some ([], [])

def sign (bytes : Bytes) : Bytes × Bytes :=
  match bytes with
  | minus :: rest => ([minus], rest)
  | _ => ([], bytes)

def number? (bytes : Bytes) : Option (Bytes × Bytes) := do
  let (sign, rest) := sign bytes
  let (whole, rest) ← integerPart? rest
  let (part, rest) ← fraction? rest
  let (power, rest) ← exponent? rest
  return (sign ++ whole ++ part ++ power, rest)

def word? (word : String) (v : Json) (bytes : Bytes) : Option (Json × Bytes) :=
  let word := ascii word
  if word.isPrefixOf bytes then some (v, bytes.drop word.length) else none

mutual

/-- A value at the start of the bytes, after blanks, and what follows it. -/
def value? : Nat → Bytes → Option (Json × Bytes)
  | 0, _ => none
  | fuel + 1, bytes =>
    let bytes := skipBlanks bytes
    match bytes with
    | [] => none
    | quote :: rest => (inside? [] rest).map fun r => (string r.1, r.2)
    | openBracket :: rest =>
      match skipBlanks rest with
      | closeBracket :: rest => some (array [], rest)
      | _ => (items? fuel rest).map fun r => (array r.1, r.2)
    | openBrace :: rest =>
      match skipBlanks rest with
      | closeBrace :: rest => some (object [], rest)
      | _ => (members? fuel rest).map fun r => (object r.1, r.2)
    | b :: _ =>
      if b = minus ∨ isDigit b then (number? bytes).map fun r => (number r.1, r.2)
      else word? "null" null bytes <|> word? "true" (bool true) bytes <|>
        word? "false" (bool false) bytes

def items? : Nat → Bytes → Option (List Json × Bytes)
  | 0, _ => none
  | fuel + 1, bytes =>
    match value? fuel bytes with
    | none => none
    | some (v, rest) =>
      match skipBlanks rest with
      | comma :: rest => (items? fuel rest).map fun r => (v :: r.1, r.2)
      | closeBracket :: rest => some ([v], rest)
      | _ => none

def members? : Nat → Bytes → Option (List (Bytes × Json) × Bytes)
  | 0, _ => none
  | fuel + 1, bytes =>
    match skipBlanks bytes with
    | quote :: rest =>
      match inside? [] rest with
      | none => none
      | some (key, rest) =>
        match skipBlanks rest with
        | colon :: rest =>
          match value? fuel rest with
          | none => none
          | some (v, rest) =>
            match skipBlanks rest with
            | comma :: rest => (members? fuel rest).map fun r => ((key, v) :: r.1, r.2)
            | closeBrace :: rest => some ([(key, v)], rest)
            | _ => none
        | _ => none
    | _ => none

end

/-- More steps than reading the bytes can take: each byte begins at most two. -/
def enough (bytes : Bytes) : Nat := 2 * bytes.length + 2

def parse? (bytes : Bytes) : Option Json :=
  match value? (enough bytes) bytes with
  | some (v, rest) => if (skipBlanks rest).isEmpty then some v else none
  | none => none

end TraceIndex.Json
