import TraceIndex.Bytes
import TraceIndex.Text.Decimal

namespace TraceIndex.Toml

def isSpace (c : Char) : Bool := c = ' ' || c = '\t'

def skipSpaces (cs : List Char) : List Char := cs.dropWhile isSpace

def isInteger (n : Int) : Bool := -0x8000000000000000 ≤ n && n < 0x8000000000000000

/-- Digits of a base; an underscore may stand between two of them. -/
def digitsFrom? (base value : Nat) : List Char → Option Nat
  | [] => none
  | c :: rest =>
    match (Bytes.hexValue? c).filter (· < base) with
    | none => none
    | some d =>
      let value := value * base + d
      match rest with
      | [] => some value
      | '_' :: rest => digitsFrom? base value rest
      | rest => digitsFrom? base value rest

def decimalDigits? (cs : List Char) : Option Nat :=
  match cs with
  | '0' :: _ :: _ => none
  | _ => digitsFrom? 10 0 cs

def integer? (cs : List Char) : Option Int := do
  let n : Int ← match cs with
    | '0' :: 'x' :: rest => digitsFrom? 16 0 rest
    | '0' :: 'o' :: rest => digitsFrom? 8 0 rest
    | '0' :: 'b' :: rest => digitsFrom? 2 0 rest
    | '+' :: rest => decimalDigits? rest
    | '-' :: rest => (decimalDigits? rest).map fun n => -(n : Int)
    | _ => decimalDigits? cs
  if isInteger n then some n else none

def isBare (c : Char) : Bool :=
  ('A' ≤ c && c ≤ 'Z') || ('a' ≤ c && c ≤ 'z') || Text.isDigit c || c = '_' || c = '-'

def isVisible (c : Char) : Bool := c = '\t' || (' ' ≤ c && c ≠ '\x7f')

def literalKey? (key : List Char) : List Char → Option (String × List Char)
  | [] => none
  | '\'' :: rest => some (String.ofList key.reverse, rest)
  | c :: rest => if isVisible c then literalKey? (c :: key) rest else none

def codePoint? (digits : List Char) : Option Char := do
  let n ← digits.foldlM (fun n c => (Bytes.hexValue? c).map (16 * n + ·)) 0
  if h : n.isValidChar then some (Char.ofNatAux n h) else none

def escape? : Char → Option Char
  | 'b' => some '\x08'
  | 't' => some '\t'
  | 'n' => some '\n'
  | 'f' => some '\x0c'
  | 'r' => some '\r'
  | '"' => some '"'
  | '\\' => some '\\'
  | _ => none

def basicKey? (key : List Char) : List Char → Option (String × List Char)
  | [] => none
  | '"' :: rest => some (String.ofList key.reverse, rest)
  | '\\' :: 'u' :: a :: b :: c :: d :: rest =>
    match codePoint? [a, b, c, d] with
    | some u => basicKey? (u :: key) rest
    | none => none
  | '\\' :: 'U' :: a :: b :: c :: d :: e :: f :: g :: h :: rest =>
    match codePoint? [a, b, c, d, e, f, g, h] with
    | some u => basicKey? (u :: key) rest
    | none => none
  | '\\' :: c :: rest =>
    match escape? c with
    | some u => basicKey? (u :: key) rest
    | none => none
  | c :: rest => if isVisible c ∧ c ≠ '\\' then basicKey? (c :: key) rest else none

def key? (cs : List Char) : Option (String × List Char) :=
  match cs with
  | '"' :: rest => basicKey? [] rest
  | '\'' :: rest => literalKey? [] rest
  | _ =>
    let name := cs.takeWhile isBare
    if name.isEmpty then none else some (String.ofList name, cs.dropWhile isBare)

def isTrailing (cs : List Char) : Bool :=
  match skipSpaces cs with
  | [] => true
  | '#' :: comment => comment.all isVisible
  | _ => false

def isValueChar (c : Char) : Bool := !isSpace c && c ≠ '#'

/-- The pair of a line, if it holds one. The line may end in a comment. Anything else that the
language allows on a line has no reading here, which is `none`. -/
def line? (cs : List Char) : Option (Option (String × Int)) :=
  if isTrailing cs then some none
  else do
    let (key, rest) ← key? (skipSpaces cs)
    match skipSpaces rest with
    | '=' :: rest =>
      let value := skipSpaces rest
      let n ← integer? (value.takeWhile isValueChar)
      if isTrailing (value.dropWhile isValueChar) then some (some (key, n)) else none
    | _ => none

/-- The lines of a text. A carriage return belongs to the end of the line if it is the last
character before it. -/
def lines (line : List Char) : List Char → List (List Char)
  | [] => [line.reverse]
  | '\n' :: rest => line.reverse :: lines [] rest
  | '\r' :: '\n' :: rest => line.reverse :: lines [] rest
  | c :: rest => lines (c :: line) rest

def skipMark (cs : List Char) : List Char :=
  match cs with
  | '\uFEFF' :: rest => rest
  | _ => cs

def pairs? (cs : List Char) : Option (List (String × Int)) := do
  let found ← (lines [] (skipMark cs)).mapM line?
  return found.filterMap id

def pairLine (p : String × Int) : String := p.1 ++ " = " ++ Text.decimal p.2 ++ "\n"

/-- A document of pairs whose keys need no quotes; `none` where a value is not an integer of the
language. -/
def render? (pairs : List (String × Int)) : Option String :=
  if pairs.all (isInteger ·.2) then some (String.join (pairs.map pairLine)) else none

end TraceIndex.Toml
