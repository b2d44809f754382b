import PrattFrontEnd.Parser.Rule

/-!
Statements, sequences of statements, and blocks. A failed statement is dropped from its sequence.
-/
namespace PrattFrontEnd.Statement

open Rule

def binding (operand : Operand) : Rule Stmt := do
  let token ← here
  expect .identifier
  let name ← name
  expect .assign
  advance
  let value ← operand .lowest
  let _ ← accept .semicolon
  return .binding token name value

def result (operand : Operand) : Rule Stmt := do
  let token ← here
  advance
  let value ← operand .lowest
  let _ ← accept .semicolon
  return .result token value

def expression (operand : Operand) : Rule Stmt := do
  let token ← here
  let value ← operand .lowest
  let _ ← accept .semicolon
  return .expression token value

def any (operand : Operand) : Rule Stmt := fun p =>
  match p.current.kind with
  | .letWord => binding operand p
  | .returnWord => result operand p
  | _ => expression operand p

/-- Statements up to a token that closes the sequence, in at most the given number of rounds.
After a failed statement the parser is brought to a statement boundary. -/
def sequence (operand : Operand) (closes : Kind → Bool) : Nat → Parser → List Stmt × Parser
  | 0, p => ([], p)
  | rounds + 1, p =>
    if closes p.current.kind then ([], p)
    else match any operand p with
      | (.ok statement, q) =>
        let (statements, r) := sequence operand closes rounds q.advance
        (statement :: statements, r)
      | (.error _, q) => sequence operand closes rounds q.synchronize.advance

/-- The closing brace ends a block, and so does the end of input. -/
def endsBlock (k : Kind) : Bool := k = .rightBrace || k = .eof

def endsProgram (k : Kind) : Bool := k = .eof

def block (operand : Operand) (p : Parser) : Block × Parser :=
  let (statements, q) := sequence operand endsBlock p.span p.advance
  (.mk p.current statements, q)

def program (operand : Operand) (p : Parser) : Program × Parser :=
  let (statements, q) := sequence operand endsProgram p.span p
  (⟨statements⟩, q.note (.parsed statements.length q.diagnostics.length))

end PrattFrontEnd.Statement
