namespace TraceIndex.Text

def decimal (n : Int) : String :=
  match n with
  | .ofNat k => Nat.repr k
  | .negSucc k => String.ofList ('-' :: Nat.toDigits 10 (k + 1))

def padded (width n : Nat) : String :=
  let digits := Nat.toDigits 10 n
  String.ofList (List.replicate (width - digits.length) '0' ++ digits)

def isDigit (c : Char) : Bool := '0' ≤ c && c ≤ '9'

def digits? (cs : List Char) : Option Nat :=
  if !cs.isEmpty && cs.all isDigit then
    some (cs.foldl (fun n c => 10 * n + (c.toNat - 48)) 0)
  else none

end TraceIndex.Text
