import PrattFrontEnd.Token
import PrattFrontEnd.Text.Quoted

/-!
What a parser has to say: diagnostics, failures, and the events of a run.
-/
namespace PrattFrontEnd

/-- Why a construct was not accepted. A note is a diagnostic worded by someone else. -/
inductive Diagnostic where
  | unexpected (wanted found : Kind)
  | noOpening (kind : Kind)
  | tooDeep (limit : Int)
  | badInteger (literal : String)
  | note (message : String)
  deriving DecidableEq, Repr

def Diagnostic.message : Diagnostic → String
  | unexpected wanted found =>
    "expected next token to be " ++ wanted.name ++ ", got " ++ found.name ++ " instead"
  | noOpening kind => "no prefix parse function for " ++ kind.name ++ " found"
  | tooDeep limit => "maximum nesting depth of " ++ toString limit ++ " exceeded"
  | badInteger literal => "could not parse " ++ Text.quoted literal ++ " as integer"
  | note message => message

structure Failure where
  diagnostic : Diagnostic
  token : Token
  deriving DecidableEq, Repr

def Failure.describe (f : Failure) : String :=
  "ParseFailure(" ++ Text.quoted f.diagnostic.message ++ ", " ++ f.token.describe ++ ")"

inductive Event where
  | reported (failure : Failure)
  | skipping (token : Token)
  | parsed (statements diagnostics : Nat)
  deriving DecidableEq, Repr

def Event.message : Event → String
  | reported failure =>
    "parse error at " ++ failure.token.describe ++ ": " ++ failure.diagnostic.message
  | skipping token => "skipping to statement boundary from " ++ token.describe
  | parsed statements diagnostics =>
    "parsed " ++ toString statements ++ " statement(s) with " ++ toString diagnostics ++ " error(s)"

def Event.failure? : Event → Option Failure
  | reported failure => some failure
  | skipping _ | parsed _ _ => none

end PrattFrontEnd
