import PrattFrontEnd.Kind

/-!
Binding strength of operators, weakest first.
-/
namespace PrattFrontEnd

inductive Precedence where
  | lowest | equality | comparison | sum | product | unary | call | index
  deriving DecidableEq, Repr

namespace Precedence

def rank : Precedence → Nat
  | lowest => 1
  | equality => 2
  | comparison => 3
  | sum => 4
  | product => 5
  | unary => 6
  | call => 7
  | index => 8

instance : LT Precedence where
  lt p q := p.rank < q.rank

instance : LE Precedence where
  le p q := p.rank ≤ q.rank

instance (p q : Precedence) : Decidable (p < q) := inferInstanceAs (Decidable (p.rank < q.rank))

instance (p q : Precedence) : Decidable (p ≤ q) := inferInstanceAs (Decidable (p.rank ≤ q.rank))

theorem lt_iff_rank {p q : Precedence} : p < q ↔ p.rank < q.rank := Iff.rfl

theorem le_iff_rank {p q : Precedence} : p ≤ q ↔ p.rank ≤ q.rank := Iff.rfl

def all : List Precedence := [lowest, equality, comparison, sum, product, unary, call, index]

def name : Precedence → String
  | lowest => "LOWEST"
  | equality => "EQUALS"
  | comparison => "LESSGREATER"
  | sum => "SUM"
  | product => "PRODUCT"
  | unary => "PREFIX"
  | call => "CALL"
  | index => "INDEX"

def ofName? (name : String) : Option Precedence :=
  all.find? (·.name == name)

end Precedence

def Kind.precedence? : Kind → Option Precedence
  | .equal | .notEqual => some .equality
  | .less | .greater => some .comparison
  | .plus | .minus => some .sum
  | .slash | .asterisk => some .product
  | .leftParen => some .call
  | .leftBracket => some .index
  | _ => none

end PrattFrontEnd
