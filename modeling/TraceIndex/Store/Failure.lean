namespace TraceIndex

inductive StoreFailure
  | timeout (message : String)
  | unavailable (message : String)
  | rejected (message : String)
  | invalidValue (column reason : String)
  | metadata (message : String)
  deriving DecidableEq, Repr

namespace StoreFailure

def text : StoreFailure → String
  | timeout m => "timed out: " ++ m
  | unavailable m => "unavailable: " ++ m
  | rejected m => "rejected: " ++ m
  | invalidValue column reason => "invalid value for column " ++ column ++ ": " ++ reason
  | metadata m => "metadata: " ++ m

/-- Whether the same statement may succeed when it is sent again. -/
def isTransient : StoreFailure → Bool
  | timeout _ | unavailable _ => true
  | _ => false

end StoreFailure

end TraceIndex
