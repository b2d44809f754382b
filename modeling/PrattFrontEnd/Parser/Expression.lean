import PrattFrontEnd.Parser.Statement
import PrattFrontEnd.Text.Numeral

/-!
Expressions by precedence climbing: a rule opens the expression, and while the next token binds
tighter than the bound, a rule continues it. Every rule is written over a way to parse its operands;
`Expression.within` closes the circle and allows so many expressions inside one another.
-/
namespace PrattFrontEnd.Expression

open Rule

def maxInteger : Nat := 0x7FFFFFFFFFFFFFFF

/-- The value of an integer literal. Literals of more than nineteen significant digits are out of
range without being read. -/
def integerValue? (literal : String) : Option Nat :=
  let digits := literal.toList
  if 19 < (digits.dropWhile (· = '0')).length then none
  else (Text.natural? digits).filter (· ≤ maxInteger)

/-- An integer literal. That a literal can be worked out is taken as given here, however long it is;
`Parser.read` is the run that breaks off where it cannot. -/
def integer : Rule Expr := fun p =>
  match integerValue? p.current.text with
  | some value => (.ok (.integer p.current value), p)
  | none => fail (.badInteger p.current.text) p.current p

def string : Rule Expr := do
  let token ← here
  return .string token token.text

def boolean : Rule Expr := do
  let token ← here
  return .boolean token (token.kind = .trueWord)

def unary (operand : Operand) : Rule Expr := do
  let token ← here
  advance
  let right ← operand .unary
  return .unary token token.text right

def group (operand : Operand) : Rule Expr := do
  advance
  let inner ← operand .lowest
  expect .rightParen
  return inner

def conditional (operand : Operand) : Rule Expr := do
  let token ← here
  expect .leftParen
  advance
  let condition ← operand .lowest
  expect .rightParen
  expect .leftBrace
  let consequence ← always (Statement.block operand)
  if ← accept .elseWord then
    expect .leftBrace
    let alternative ← always (Statement.block operand)
    return .conditional token condition consequence (some alternative)
  else
    return .conditional token condition consequence none

def moreParameters : Nat → Rule (List Name)
  | 0 => return []
  | rounds + 1 => do
    if ← accept .comma then
      expect .identifier
      let name ← name
      let names ← moreParameters rounds
      return name :: names
    else
      return []

def parameters : Rule (List Name) := do
  if ← accept .rightParen then
    return []
  else
    expect .identifier
    let name ← name
    let names ← fun p => moreParameters p.span p
    expect .rightParen
    return name :: names

def function (operand : Operand) : Rule Expr := do
  let token ← here
  expect .leftParen
  let names ← parameters
  expect .leftBrace
  let body ← always (Statement.block operand)
  return .function token names body

def moreItems (operand : Operand) : Nat → Rule (List Expr)
  | 0 => return []
  | rounds + 1 => do
    if ← accept .comma then
      advance
      let item ← operand .lowest
      let items ← moreItems operand rounds
      return item :: items
    else
      return []

def items (operand : Operand) (closing : Kind) : Rule (List Expr) := do
  if ← accept closing then
    return []
  else
    advance
    let item ← operand .lowest
    let items ← fun p => moreItems operand p.span p
    expect closing
    return item :: items

def array (operand : Operand) : Rule Expr := do
  let token ← here
  let elements ← items operand .rightBracket
  return .array token elements

/-- An operator between two operands. The right one binds tighter than the operator, so that
operators of one strength associate to the left. -/
def binary (operand : Operand) (left : Expr) : Rule Expr := do
  let token ← here
  let bound ← strength
  advance
  let right ← operand bound
  return .binary token left token.text right

def call (operand : Operand) (callee : Expr) : Rule Expr := do
  let token ← here
  let arguments ← items operand .rightParen
  return .call token callee arguments

def index (operand : Operand) (collection : Expr) : Rule Expr := do
  let token ← here
  advance
  let position ← operand .lowest
  expect .rightBracket
  return .index token collection position

def opening (operand : Operand) : Opening → Rule Expr
  | .name => do return .name (← name)
  | .integer => integer
  | .string => string
  | .boolean => boolean
  | .unary => unary operand
  | .group => group operand
  | .conditional => conditional operand
  | .function => function operand
  | .array => array operand

def continuation (operand : Operand) (left : Expr) : Continuation → Rule Expr
  | .binary => binary operand left
  | .call => call operand left
  | .index => index operand left

def continues (bound : Precedence) (p : Parser) : Bool :=
  p.peek.kind ≠ .semicolon && bound < p.peekPrecedence

/-- Continues an expression as long as the next token binds tighter than the bound, in at most the
given number of rounds. -/
def climb (operand : Operand) (bound : Precedence) : Nat → Expr → Rule Expr
  | 0, left => fun p => (.ok left, p)
  | rounds + 1, left => fun p =>
    if continues bound p then
      match p.table.continuation p.peek.kind with
      | none => (.ok left, p)
      | some step =>
        (do
          advance
          let longer ← continuation operand left step
          climb operand bound rounds longer : Rule Expr) p
    else (.ok left, p)

def start (operand : Operand) (bound : Precedence) : Rule Expr := fun p =>
  match p.table.opening p.current.kind with
  | none => fail (.noOpening p.current.kind) p.current p
  | some first =>
    (do
      let left ← opening operand first
      climb operand bound p.span left : Rule Expr) p

/-- An expression with at most the given number of expressions inside one another, itself
included. -/
def within : Nat → Operand
  | 0, _ => fun p => fail (.tooDeep p.maxDepth) p.current p
  | levels + 1, bound => fun p =>
    let (result, q) := start (within levels) bound { p with depth := p.depth + 1 }
    (result, { q with depth := q.depth - 1 })

end PrattFrontEnd.Expression
