import PrattFrontEnd.Syntax.Render

/-!
What a rendering can lose. Parentheses around an expression are not kept, and statements are
rendered without anything to separate them but layout. A program is safe to render when the
condition of every `if` brings parentheses of its own and no statement can be read as a part of the
one before it.
-/
namespace PrattFrontEnd

/-- Whether the rendering of an expression stands in parentheses. -/
def Expr.parenthesised : Expr → Bool
  | .unary _ _ _ | .binary _ _ _ _ | .index _ _ _ => true
  | _ => false

def Stmt.isExpression : Stmt → Bool
  | .expression _ _ => true
  | _ => false

/-- Whether the rendering of an expression statement, behind that of another one, reads as the
arguments of a call or the position of an index. -/
def Stmt.glues (s t : Stmt) : Bool :=
  s.isExpression && t.isExpression &&
    (t.render.toList.head? = some '(' || t.render.toList.head? = some '[')

def Stmt.unglued : List Stmt → Bool
  | [] => true
  | s :: ss => (ss.head?.all fun t => !s.glues t) && unglued ss

section

variable (condition : Expr → Bool) (sequence : List Stmt → Bool)

mutual

/-- Whether the condition of every `if` inside passes the first test, and every sequence of statements
inside the second one. -/
@[simp] def Expr.every : Expr → Bool
  | .bare _ | .name _ | .integer _ _ | .string _ _ | .boolean _ _ => true
  | .unary _ _ operand => operand.every
  | .binary _ left _ right => left.every && right.every
  | .conditional _ c consequence none => condition c && c.every && consequence.every
  | .conditional _ c consequence (some alternative) =>
    condition c && c.every && consequence.every && alternative.every
  | .function _ _ body => body.every
  | .call _ callee arguments => callee.every && Expr.allEvery arguments
  | .array _ elements => Expr.allEvery elements
  | .index _ collection position => collection.every && position.every
termination_by structural e => e

@[simp] def Stmt.every : Stmt → Bool
  | .bare _ => true
  | .binding _ _ value | .result _ value | .expression _ value => value.every
  | .block b => b.every
termination_by structural s => s

@[simp] def Block.every : Block → Bool
  | .mk _ statements => sequence statements && Stmt.allEvery statements
termination_by structural b => b

def Expr.allEvery : List Expr → Bool
  | [] => true
  | e :: es => e.every && Expr.allEvery es
termination_by structural es => es

def Stmt.allEvery : List Stmt → Bool
  | [] => true
  | s :: ss => s.every && Stmt.allEvery ss
termination_by structural ss => ss

end

def Program.every (p : Program) : Bool :=
  sequence p.statements && Stmt.allEvery condition sequence p.statements

end

def Program.unglued (p : Program) : Bool := p.every (fun _ => true) Stmt.unglued

/-- Whether, besides, the condition of every `if` is rendered in parentheses. -/
def Program.renderingSafe (p : Program) : Bool := p.every Expr.parenthesised Stmt.unglued

end PrattFrontEnd
