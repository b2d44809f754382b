import PrattFrontEnd.Parser.Expression

/-!
Parsing: the rules of the language applied to a parser, and a whole source text parsed at once.
-/
namespace PrattFrontEnd

namespace Parser

def operand (p : Parser) : Operand := Expression.within p.levels

def parseExpression (bound : Precedence) (p : Parser) : Except Failure Expr × Parser :=
  p.operand bound p

def parseStatement (p : Parser) : Except Failure Stmt × Parser := Statement.any p.operand p

def parseBlock (p : Parser) : Block × Parser := Statement.block p.operand p

def parseProgram (p : Parser) : Program × Parser := Statement.program p.operand p

end Parser

def defaultMaxDepth : Int := 100

structure Parsed where
  program : Program
  diagnostics : List Diagnostic
  log : List Event

def Parsed.messages (r : Parsed) : List String := r.diagnostics.map Diagnostic.message

/-- A whole run. Every literal is taken as worked out; `Parser.read` has the same result unless it breaks
off at a literal that cannot be. -/
def Parser.run (p : Parser) : Parsed :=
  let (program, q) := p.parseProgram
  ⟨program, q.diagnostics, q.log.reverse⟩

/-- The parse of a source text, with every literal taken as worked out; see `readProgram`. -/
def parse (source : String) (maxDepth : Int) : Parsed := (Parser.ofString source maxDepth).run

structure Rejection where
  first : Diagnostic
  others : List Diagnostic

namespace Rejection

def diagnostics (r : Rejection) : List Diagnostic := r.first :: r.others

def message (r : Rejection) : String :=
  toString r.diagnostics.length ++ " parse error(s): " ++ r.first.message

end Rejection

def parseStrict (source : String) (maxDepth : Int) : Except Rejection Program :=
  let parsed := parse source maxDepth
  match parsed.diagnostics with
  | [] => .ok parsed.program
  | first :: others => .error ⟨first, others⟩

end PrattFrontEnd
