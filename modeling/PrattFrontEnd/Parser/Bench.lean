import PrattFrontEnd.Parser.Parse
import PrattFrontEnd.Syntax.Node

/-!
A parser in the hands of a caller, who may use its parts in any order and on any token, feed a left
operand of their own to the continuing rules, and change the table of rules. Integer literals of any
length are taken to be worked out here.
-/
namespace PrattFrontEnd

inductive Request where
  | advance
  | currentIs (k : Kind)
  | peekIs (k : Kind)
  | expect (k : Kind)
  | failure
  | synchronize
  | currentPrecedence
  | peekPrecedence
  | precedenceOf (k : Kind)
  | report (failure : Failure)
  | program
  | statement
  | binding
  | result
  | expressionStatement
  | block
  | expression (bound : Precedence)
  | opening (rule : Opening)
  | continuation (rule : Continuation)
  | parameters
  | items (closing : Kind)
  | setLeft (left : Expr)
  | setOpening (k : Kind) (rule : Opening)
  | register (k : Kind) (rule : Continuation) (p : Precedence)
  | dropOpening (k : Kind)
  | dropContinuation (k : Kind)
  | setPrecedence (k : Kind) (p : Precedence)

/-- What a caller gets back. Asking for the last failure when there was none is refused. -/
inductive Answer where
  | done
  | flag (value : Bool)
  | token (token : Token)
  | precedence (p : Precedence)
  | failed (failure : Failure)
  | node (node : Node)
  | program (program : Program)
  | names (names : List Name)
  | exprs (exprs : List Expr)
  | refused

/-- A parser with the left operand that its caller keeps for the continuing rules. -/
structure Bench where
  parser : Parser
  left : Expr

namespace Bench

def onSource (source : Source) (maxDepth : Int) : Bench := ⟨.onSource source maxDepth, default⟩

def apply (b : Bench) (rule : Rule α) (answer : α → Answer) : Answer × Bench :=
  match rule b.parser with
  | (.ok a, q) => (answer a, { b with parser := q })
  | (.error failure, q) => (.failed failure, { b with parser := q })

def applyKeeping (b : Bench) (rule : Rule Expr) : Answer × Bench :=
  match rule b.parser with
  | (.ok e, q) => (.node (.expr e), ⟨q, e⟩)
  | (.error failure, q) => (.failed failure, { b with parser := q })

def withTable (b : Bench) (table : RuleTable) : Bench :=
  { b with parser := { b.parser with table } }

def serve (b : Bench) : Request → Answer × Bench
  | .advance => (.token b.parser.advance.current, { b with parser := b.parser.advance })
  | .currentIs k => (.flag (b.parser.currentIs k), b)
  | .peekIs k => (.flag (b.parser.peekIs k), b)
  | .expect k =>
    match Rule.expect k b.parser with
    | (.ok (), q) => (.flag true, { b with parser := q })
    | (.error _, q) => (.flag false, { b with parser := q })
  | .failure => ((b.parser.lastFailure.map Answer.failed).getD .refused, b)
  | .synchronize => (.done, { b with parser := b.parser.synchronize })
  | .currentPrecedence => (.precedence b.parser.currentPrecedence, b)
  | .peekPrecedence => (.precedence b.parser.peekPrecedence, b)
  | .precedenceOf k => (.precedence (b.parser.table.precedenceOf k), b)
  | .report failure => (.failed failure, { b with parser := b.parser.report failure })
  | .program => b.apply (.always Parser.parseProgram) .program
  | .statement => b.apply Parser.parseStatement (.node ∘ .stmt)
  | .binding => b.apply (Statement.binding b.parser.operand) (.node ∘ .stmt)
  | .result => b.apply (Statement.result b.parser.operand) (.node ∘ .stmt)
  | .expressionStatement => b.apply (Statement.expression b.parser.operand) (.node ∘ .stmt)
  | .block => b.apply (.always Parser.parseBlock) (.node ∘ .stmt ∘ .block)
  | .expression bound => b.applyKeeping (Parser.parseExpression bound)
  | .opening rule => b.apply (Expression.opening b.parser.operand rule) (.node ∘ .expr)
  | .continuation rule => b.applyKeeping (Expression.continuation b.parser.operand b.left rule)
  | .parameters => b.apply Expression.parameters .names
  | .items closing => b.apply (Expression.items b.parser.operand closing) .exprs
  | .setLeft left => (.done, { b with left })
  | .setOpening k rule => (.done, b.withTable (b.parser.table.setOpening k (some rule)))
  | .register k rule p => (.done, b.withTable (b.parser.table.register k rule p))
  | .dropOpening k =>
    (.flag (b.parser.table.opening k).isSome, b.withTable (b.parser.table.setOpening k none))
  | .dropContinuation k =>
    (.flag (b.parser.table.continuation k).isSome,
      b.withTable (b.parser.table.setContinuation k none))
  | .setPrecedence k p => (.done, b.withTable (b.parser.table.setPrecedence k p))

end Bench

end PrattFrontEnd
