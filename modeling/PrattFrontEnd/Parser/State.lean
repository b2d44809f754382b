import PrattFrontEnd.Source
import PrattFrontEnd.Parser.Diagnostic
import PrattFrontEnd.Parser.RuleTable

/-!
The state of a parser: a window of two tokens over a source, the rules in force, and a log from
which the diagnostics can be read off. Recovery after a failed statement belongs here, since it
only moves the window.
-/
namespace PrattFrontEnd

structure Parser where
  source : Source
  current : Token
  peek : Token
  table : RuleTable
  maxDepth : Int
  /-- How many expressions are being parsed inside one another. -/
  depth : Nat
  /-- A bound on the tokens the source can deliver, and so on the rounds of any loop. -/
  span : Nat
  /-- What has happened so far, the latest first. -/
  log : List Event

namespace Parser

def advance (p : Parser) : Parser :=
  let (token, source) := p.source.next
  { p with current := p.peek, peek := token, source := source }

def onSource (source : Source) (maxDepth : Int) : Parser :=
  let unread : Parser :=
    { source, current := Token.endAt ⟨0, 0⟩, peek := Token.endAt ⟨0, 0⟩, table := .standard,
      maxDepth, depth := 0, span := source.remaining + 2, log := [] }
  unread.advance.advance

def ofString (source : String) (maxDepth : Int) : Parser := onSource (.ofString source) maxDepth

def ofList (tokens : List Token) (maxDepth : Int) : Parser := onSource (.ofList tokens) maxDepth

def currentIs (p : Parser) (k : Kind) : Bool := p.current.kind = k

def peekIs (p : Parser) (k : Kind) : Bool := p.peek.kind = k

def currentPrecedence (p : Parser) : Precedence := p.table.precedenceOf p.current.kind

def peekPrecedence (p : Parser) : Precedence := p.table.precedenceOf p.peek.kind

def levels (p : Parser) : Nat := (p.maxDepth - p.depth).toNat

def note (p : Parser) (event : Event) : Parser := { p with log := event :: p.log }

def report (p : Parser) (failure : Failure) : Parser := p.note (.reported failure)

def diagnostics (p : Parser) : List Diagnostic :=
  p.log.reverse.filterMap fun event => event.failure?.map Failure.diagnostic

def lastFailure (p : Parser) : Option Failure := p.log.findSome? Event.failure?

theorem diagnostics_report (p : Parser) (failure : Failure) :
    (p.report failure).diagnostics = p.diagnostics ++ [failure.diagnostic] := by
  simp [diagnostics, report, note, Event.failure?]

theorem lastFailure_report (p : Parser) (failure : Failure) :
    (p.report failure).lastFailure = some failure := rfl

/-- A bound on the tokens to come that decreases as the window moves towards the end. -/
def unread (p : Parser) : Nat := p.source.remaining + if p.peek.kind = .eof then 0 else 1

theorem unread_advance_lt {p : Parser} (more : p.peek.kind ≠ .eof) :
    p.advance.unread < p.unread := by
  have shrinks := p.source.next_remaining_le
  simp only [unread, advance, more, if_false]
  by_cases last : p.source.next.1.kind = .eof
  · simp only [last, if_true]
    omega
  · have left : 0 < p.source.remaining :=
      Nat.pos_of_ne_zero fun exhausted => last (Source.next_kind_of_exhausted exhausted)
    have := Source.next_remaining_lt last left
    simp only [last, if_false]
    omega

/-- The braces still open after one more token of a skipped stretch. A closing brace with nothing to
close does not count. -/
def openBraces (opened : Nat) (k : Kind) : Nat :=
  if k = .leftBrace then opened + 1 else if k = .rightBrace then opened - 1 else opened

/-- Skips tokens with some braces open already, to the last token before the end of input, or to a
semicolon or the token before a closing brace outside all braces opened on the way. -/
def skipStatement (opened : Nat) (p : Parser) : Parser :=
  if p.current.kind = .eof then p
  else if _last : p.peek.kind = .eof then p
  else if openBraces opened p.current.kind = 0 &&
      (p.current.kind = .semicolon || p.peek.kind = .rightBrace) then p
  else skipStatement (openBraces opened p.current.kind) p.advance
termination_by p.unread
decreasing_by exact unread_advance_lt _last

def synchronize (p : Parser) : Parser := (p.note (.skipping p.current)).skipStatement 0

end Parser

end PrattFrontEnd
