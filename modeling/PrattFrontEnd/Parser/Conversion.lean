import PrattFrontEnd.Parser.Parse

/-!
Literals that cannot be worked out. A literal of at most nineteen significant digits is worked out,
and if it has too many digits all the same, since it starts with so many zeros, the whole run breaks
off there. `Parser.run` takes every literal as worked out. The run that can break off has operands
that are given up at such literals; what happens behind the first of them does not count.
-/
namespace PrattFrontEnd

/-- Why a literal cannot be worked out. Literals that are out of range by their length need not be. -/
def Expression.conversionFault? (literal : String) : Option Text.TooManyDigits :=
  let digits := literal.toList
  if digits.all Char.isDigit ∧ (digits.dropWhile (· = '0')).length ≤ 19 then
    Text.tooMany? digits.length
  else none

/-- Why no expression can be begun at the current token: it is a literal for the rule of integers and
cannot be worked out. -/
def Parser.conversionFault? (p : Parser) : Option Text.TooManyDigits :=
  if p.table.opening p.current.kind = some .integer then
    Expression.conversionFault? p.current.text
  else none

/-- Expressions as `Expression.within` has them, given up where a literal cannot be worked out. -/
def Expression.readable : Nat → Operand
  | 0, bound => within 0 bound
  | levels + 1, bound => fun p =>
    if p.conversionFault?.isSome then Rule.fail (.badInteger p.current.text) p.current p
    else
      let (result, q) := start (readable levels) bound { p with depth := p.depth + 1 }
      (result, { q with depth := q.depth - 1 })

structure Interruption where
  fault : Text.TooManyDigits
  log : List Event

/-- Why a run with readable operands breaks off at an event. -/
def Event.breaks? : Event → Option Text.TooManyDigits
  | .reported ⟨.badInteger literal, _⟩ => Expression.conversionFault? literal
  | _ => none

def Interruption.inLog? : List Event → Option Interruption
  | [] => none
  | event :: events =>
    match event.breaks? with
    | some fault => some ⟨fault, []⟩
    | none => (inLog? events).map fun i => { i with log := event :: i.log }

def Parsed.unlessBroken (r : Parsed) : Except Interruption Parsed :=
  match Interruption.inLog? r.log with
  | some interruption => .error interruption
  | none => .ok r

/-- Parses a program unless the run breaks off at a literal that cannot be worked out. -/
def Parser.read (p : Parser) : Except Interruption Parsed :=
  let (program, q) := Statement.program (Expression.readable p.levels) p
  Parsed.unlessBroken ⟨program, q.diagnostics, q.log.reverse⟩

/-- Parses a source text unless one of its literals that open an expression cannot be worked out. -/
def readProgram (source : String) (maxDepth : Int) : Except Interruption Parsed :=
  (Parser.ofString source maxDepth).read

end PrattFrontEnd
