import PrattFrontEnd.Precedence

/-!
Rule tables: which rule opens an expression at a token of some kind, which rule continues one, and
how strongly a continuing token binds.
-/
namespace PrattFrontEnd

inductive Opening where
  | name | integer | string | boolean | unary | group | conditional | function | array
  deriving DecidableEq, Repr

inductive Continuation where
  | binary | call | index
  deriving DecidableEq, Repr

structure RuleTable where
  opening : Kind → Option Opening
  continuation : Kind → Option Continuation
  precedence : Kind → Option Precedence

namespace RuleTable

def standard : RuleTable where
  opening
    | .identifier => some .name
    | .integer => some .integer
    | .string => some .string
    | .bang | .minus => some .unary
    | .trueWord | .falseWord => some .boolean
    | .leftParen => some .group
    | .ifWord => some .conditional
    | .functionWord => some .function
    | .leftBracket => some .array
    | _ => none
  continuation
    | .plus | .minus | .slash | .asterisk | .equal | .notEqual | .less | .greater => some .binary
    | .leftParen => some .call
    | .leftBracket => some .index
    | _ => none
  precedence := Kind.precedence?

/-- A kind without an entry does not bind at all. -/
def precedenceOf (t : RuleTable) (k : Kind) : Precedence := (t.precedence k).getD .lowest

def setOpening (t : RuleTable) (k : Kind) (rule : Option Opening) : RuleTable :=
  { t with opening := fun j => if j = k then rule else t.opening j }

def setContinuation (t : RuleTable) (k : Kind) (rule : Option Continuation) : RuleTable :=
  { t with continuation := fun j => if j = k then rule else t.continuation j }

def setPrecedence (t : RuleTable) (k : Kind) (p : Precedence) : RuleTable :=
  { t with precedence := fun j => if j = k then some p else t.precedence j }

def register (t : RuleTable) (k : Kind) (rule : Continuation) (p : Precedence) : RuleTable :=
  (t.setContinuation k (some rule)).setPrecedence k p

end RuleTable

end PrattFrontEnd
