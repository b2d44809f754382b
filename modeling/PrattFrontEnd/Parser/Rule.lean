import PrattFrontEnd.Parser.State
import PrattFrontEnd.Syntax.Tree

/-!
Rules: a rule reads tokens through the parser's window and builds something or fails; either way it
leaves a parser behind.
-/
namespace PrattFrontEnd

def Rule (α : Type) : Type := Parser → Except Failure α × Parser

namespace Rule

protected def pure (a : α) : Rule α := fun p => (.ok a, p)

protected def bind (first : Rule α) (next : α → Rule β) : Rule β := fun p =>
  match first p with
  | (.ok a, q) => next a q
  | (.error failure, q) => (.error failure, q)

instance : Monad Rule where
  pure := Rule.pure
  bind := Rule.bind

theorem pure_apply (a : α) (p : Parser) : (pure a : Rule α) p = (.ok a, p) := rfl

theorem bind_apply (first : Rule α) (next : α → Rule β) (p : Parser) :
    (first >>= next) p =
      match first p with
      | (.ok a, q) => next a q
      | (.error failure, q) => (.error failure, q) := rfl

theorem bind_of_ok {first : Rule α} {next : α → Rule β} {p q : Parser} {a : α}
    (built : first p = (.ok a, q)) : (first >>= next) p = next a q := by
  rw [bind_apply, built]

theorem bind_of_error {first : Rule α} {next : α → Rule β} {p q : Parser} {failure : Failure}
    (failed : first p = (.error failure, q)) : (first >>= next) p = (.error failure, q) := by
  rw [bind_apply, failed]

/-- Something that cannot fail, as a rule. -/
def always (step : Parser → α × Parser) : Rule α := fun p => (.ok (step p).1, (step p).2)

def fail (diagnostic : Diagnostic) (token : Token) : Rule α := fun p =>
  (.error ⟨diagnostic, token⟩, p.report ⟨diagnostic, token⟩)

def here : Rule Token := fun p => (.ok p.current, p)

def strength : Rule Precedence := fun p => (.ok p.currentPrecedence, p)

def advance : Rule Unit := fun p => (.ok (), p.advance)

def expect (wanted : Kind) : Rule Unit := fun p =>
  if p.peek.kind = wanted then advance p else fail (.unexpected wanted p.peek.kind) p.peek p

def accept (kind : Kind) : Rule Bool := fun p =>
  if p.peek.kind = kind then (.ok true, p.advance) else (.ok false, p)

def name : Rule Name := fun p => (.ok ⟨p.current, p.current.text⟩, p)

end Rule

/-- How a rule parses an operand: an expression whose operators bind tighter than a bound. -/
abbrev Operand := Precedence → Rule Expr

end PrattFrontEnd
