import PrattFrontEnd.Token

/-!
Syntax trees. Every node keeps the token it was built from; the other fields are its structure. The
bare forms of expressions and statements have no structure and stand for nothing but their token.
-/
namespace PrattFrontEnd

/-- A name used as an expression, a parameter or the target of a binding. -/
structure Name where
  token : Token
  text : String
  deriving DecidableEq, Repr

mutual

inductive Expr where
  | bare (token : Token)
  | name (name : Name)
  | integer (token : Token) (value : Int)
  | string (token : Token) (value : String)
  | boolean (token : Token) (value : Bool)
  | unary (token : Token) (operator : String) (operand : Expr)
  | binary (token : Token) (left : Expr) (operator : String) (right : Expr)
  | conditional (token : Token) (condition : Expr) (consequence : Block)
      (alternative : Option Block)
  | function (token : Token) (parameters : List Name) (body : Block)
  | call (token : Token) (callee : Expr) (arguments : List Expr)
  | array (token : Token) (elements : List Expr)
  | index (token : Token) (collection : Expr) (position : Expr)

inductive Stmt where
  | bare (token : Token)
  | binding (token : Token) (name : Name) (value : Expr)
  | result (token : Token) (value : Expr)
  | expression (token : Token) (value : Expr)
  | block (block : Block)

inductive Block where
  | mk (token : Token) (statements : List Stmt)

end

instance : Inhabited Expr := ⟨.bare (Token.endAt ⟨0, 0⟩)⟩

namespace Block

def token : Block → Token
  | mk token _ => token

def statements : Block → List Stmt
  | mk _ statements => statements

end Block

def Expr.token : Expr → Token
  | bare token | integer token _ | string token _ | boolean token _ | unary token _ _
  | binary token _ _ _ | conditional token _ _ _ | function token _ _ | call token _ _
  | array token _ | index token _ _ => token
  | name n => n.token

def Stmt.token : Stmt → Token
  | bare token | binding token _ _ | result token _ | expression token _ => token
  | block b => b.token

structure Program where
  statements : List Stmt

def Program.literal (p : Program) : String := (p.statements.head?.map fun s => s.token.text).getD ""

end PrattFrontEnd
