import TraceIndex.Store.Failure
import TraceIndex.Text.Decimal

namespace TraceIndex

inductive Failure
  | validation (message : String)
  | valueTooLarge (size limit : Nat)
  | dispatch (statement source : String) (transient : Bool)
  | batch (dispatched : Nat) (first : Failure)
  | metadata (message : String)
  | config (message : String)
  | codec (message : String)
  | io (message : String)
  deriving DecidableEq, Repr, Inhabited

namespace Failure

open Text

def text : Failure → String
  | validation m => "validation failed: " ++ m
  | valueTooLarge size limit =>
    "annotation key of " ++ decimal size ++ " bytes exceeds indexable limit of " ++
      decimal limit ++ " bytes"
  | dispatch statement source _ => "failed " ++ statement ++ ": " ++ source
  | batch dispatched first =>
    decimal dispatched ++ " writes dispatched, at least one failed: " ++ first.text
  | metadata m => "schema metadata error: " ++ m
  | config m => "configuration error: " ++ m
  | codec m => "codec error: " ++ m
  | io m => "I/O error: " ++ m

/-- Whether accepting the same batch again may succeed. -/
def isRetryable : Failure → Bool
  | dispatch .. => true
  | batch _ first => first.isRetryable
  | _ => false

/-- Whether what was handed in is at fault, and not the store. -/
def isInputError : Failure → Bool
  | validation _ | valueTooLarge .. | codec _ => true
  | batch _ first => first.isInputError
  | _ => false

/-- The failure of a single write behind that of a batch. -/
def root : Failure → Failure
  | batch _ first => first.root
  | f => f

def source? : Failure → Option String
  | dispatch _ source _ => some source
  | io m => some m
  | _ => none

def ofStore : StoreFailure → Failure
  | .metadata m => metadata m
  | .invalidValue column reason => validation (column ++ ": " ++ reason)
  | f => dispatch "<unbound>" f.text f.isTransient

end Failure

end TraceIndex
