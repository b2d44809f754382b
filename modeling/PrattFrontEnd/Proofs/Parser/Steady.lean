import PrattFrontEnd.Proofs.Parser.Motion
import PrattFrontEnd.Proofs.Parser.Relation

/-!
Every rule of the language is steady: it only moves the window and writes to the log, and when it
fails its failure is the last one reported. Main statement: `steady_within`.
-/
namespace PrattFrontEnd

/-- What a steady rule may make of a parser: one that was only moved and noted in, and whose last
reported failure is the failure of the rule. -/
structure Parser.Yields (p : Parser) (outcome : Except Failure α × Parser) : Prop where
  moves : p.Reaches outcome.2
  reports : ∀ failure : Failure, outcome.1 = .error failure →
    outcome.2.lastFailure = some failure

theorem Parser.Yields.of_ok {p q : Parser} {a : α} (moves : p.Reaches q) :
    p.Yields ((.ok a, q) : Except Failure α × Parser) :=
  ⟨moves, fun _ failed => nomatch failed⟩

theorem Parser.Yields.of_error {p q : Parser} {failure : Failure} (moves : p.Reaches q)
    (reports : q.lastFailure = some failure) :
    p.Yields ((.error failure, q) : Except Failure α × Parser) := by
  refine ⟨moves, ?_⟩
  intro other failed
  cases failed
  exact reports

def Rule.Steady (rule : Rule α) : Prop := ∀ p : Parser, p.Yields (rule p)

theorem Rule.Steady.bind {first : Rule α} {next : α → Rule β} (before : first.Steady)
    (after : ∀ a, (next a).Steady) : (first >>= next).Steady := by
  intro p
  have yields := before p
  rw [bind_apply]
  cases run : first p with
  | mk result q =>
    rw [run] at yields
    cases result with
    | ok a => exact ⟨yields.moves.trans (after a q).moves, (after a q).reports⟩
    | error failure => exact .of_error yields.moves (yields.reports failure rfl)

theorem Rule.Steady.attempt {rule : Rule α} (steady : rule.Steady) : rule.attempt.Steady := by
  intro p
  have yields := steady p
  unfold Rule.attempt
  cases run : rule p with
  | mk result q =>
    rw [run] at yields
    cases result with
    | ok a => exact .of_ok yields.moves
    | error failure => exact .of_ok (yields.moves.trans q.reaches_synchronize)

def Rule.Relation.steady : Relation where
  holds rule _ := rule.Steady
  pure _ _ := .of_ok .refl
  bind before after := before.bind after
  look found p := by
    obtain ⟨same, _, does, steady⟩ := found p
    rw [(does p (.refl p)).1]
    exact steady p
  advance _ := .of_ok Parser.Reaches.refl.advance
  fail _ _ _ := .of_error (Parser.Reaches.refl.note _) rfl
  attempt steady := steady.attempt

open Rule

theorem Rule.Steady.expect (wanted : Kind) : (Rule.expect wanted).Steady :=
  Relation.steady.expect wanted

theorem Expression.steady_parameters : parameters.Steady := Relation.steady.parameters

section

variable {operand : Operand} (steady : ∀ bound, (operand bound).Steady)

include steady

theorem Rule.Relation.steady_operand (bound : Precedence) :
    Relation.steady.holds (operand bound) (operand bound) := steady bound

namespace Statement

theorem steady_any : (any operand).Steady := Relation.steady.any (Relation.steady_operand steady)

theorem reaches_sequence (closes : Kind → Bool) (rounds : Nat) (p : Parser) :
    p.Reaches (sequence operand closes rounds p).2 :=
  (Relation.steady.sequence (Relation.steady_operand steady) closes rounds p).moves

theorem reaches_block (p : Parser) : p.Reaches (block operand p).2 :=
  (Relation.steady.block (Relation.steady_operand steady) p).moves

end Statement

namespace Expression

theorem steady_moreItems (rounds : Nat) : (moreItems operand rounds).Steady :=
  Relation.steady.moreItems (Relation.steady_operand steady) rounds

theorem steady_opening (rule : Opening) : (opening operand rule).Steady :=
  Relation.steady.opening (Relation.steady_operand steady) rule

theorem steady_continuation (left : Expr) (rule : Continuation) :
    (continuation operand left rule).Steady :=
  Relation.steady.continuation (Relation.steady_operand steady) left rule

theorem steady_start (bound : Precedence) : (start operand bound).Steady :=
  Relation.steady.start (Relation.steady_operand steady) bound

end Expression

end

theorem Parser.Reaches.outwards {p q : Parser} (inner : Reaches { p with depth := p.depth + 1 } q) :
    p.Reaches { q with depth := q.depth - 1 } := by
  have same : q.depth = p.depth + 1 := inner.depth
  rw [same]
  exact inner.at_depth p.depth

theorem Expression.steady_within (levels : Nat) (bound : Precedence) :
    (within levels bound).Steady := by
  induction levels generalizing bound with
  | zero => exact fun p => Relation.steady.fail _ _ p
  | succ levels ih =>
    intro p
    have inner := steady_start ih bound { p with depth := p.depth + 1 }
    unfold within
    exact ⟨inner.moves.outwards, inner.reports⟩

end PrattFrontEnd
