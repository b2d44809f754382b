import PrattFrontEnd.Parser.Parse

/-!
What holds of all rules at once. The rules of the language are made from moves, reports and looks at
the window, one behind the other, and from statements that may fail. A relation between rules that
all of these keep holds between a rule over one operand and the same rule over another one as soon as
it holds between the operands. Main statements: `Rule.Relation.any`, `Rule.Relation.opening`,
`Rule.Relation.continuation` and `Rule.Relation.start`.
-/
namespace PrattFrontEnd

open Rule

def Rule.attempt (rule : Rule α) : Rule (Option α) := fun p =>
  match rule p with
  | (.ok a, q) => (.ok (some a), q)
  | (.error _, q) => (.ok none, q.synchronize)

/-- A parser that shows a rule what another one shows: the window, the rules in force, and a bound on
the rounds of a loop. -/
structure Parser.Shows (p q : Parser) : Prop where
  current : q.current = p.current
  peek : q.peek = p.peek
  table : q.table = p.table
  span : q.span = p.span

theorem Parser.Shows.refl (p : Parser) : p.Shows p := ⟨rfl, rfl, rfl, rfl⟩

/-- A relation between rules that every way to make a rule keeps. -/
structure Rule.Relation where
  holds : {α : Type} → Rule α → Rule α → Prop
  pure {α : Type} (a : α) : holds (Pure.pure a) (Pure.pure a)
  bind {α β : Type} {first other : Rule α} {next nextToo : α → Rule β} (before : holds first other)
    (after : ∀ a, holds (next a) (nextToo a)) : holds (first >>= next) (other >>= nextToo)
  /-- What a rule does may depend on what the parser it starts from shows. -/
  look {α : Type} {rule other : Rule α}
    (found : ∀ p : Parser, ∃ same sameToo : Rule α,
      (∀ q, p.Shows q → rule q = same q ∧ other q = sameToo q) ∧ holds same sameToo) :
    holds rule other
  advance : holds Rule.advance Rule.advance
  fail {α : Type} (diagnostic : Diagnostic) (token : Token) :
    holds (Rule.fail diagnostic token : Rule α) (Rule.fail diagnostic token)
  attempt {α : Type} {rule other : Rule α} (related : holds rule other) :
    holds rule.attempt other.attempt

theorem Statement.always_sequence_succ (operand : Operand) (closes : Kind → Bool) (rounds : Nat)
    (p : Parser) :
    always (sequence operand closes (rounds + 1)) p =
      (if closes p.current.kind then Pure.pure []
      else do
        let statement ← attempt (any operand)
        advance
        let statements ← always (sequence operand closes rounds)
        return statement.toList ++ statements : Rule (List Stmt)) p := by
  by_cases closed : closes p.current.kind = true
  · simp only [always, sequence, if_pos closed]
    rfl
  · simp only [always, sequence, if_neg closed, bind_apply, attempt]
    cases any operand p with
    | mk result q => cases result <;> rfl

theorem Statement.always_block (operand : Operand) (p : Parser) :
    always (block operand) p = (do
      advance
      let statements ← always (sequence operand endsBlock p.span)
      return .mk p.current statements : Rule Block) p := rfl

theorem Rule.accept_yes {kind : Kind} {p : Parser} (next : p.peek.kind = kind) :
    accept kind p = (.ok true, p.advance) :=
  if_pos next

theorem Rule.accept_no {kind : Kind} {p : Parser} (other : p.peek.kind ≠ kind) :
    accept kind p = (.ok false, p) :=
  if_neg other

namespace Expression

variable {operand : Operand} {bound : Precedence} {left : Expr} {p : Parser}

theorem climb_stop (stopped : ¬ continues bound p = true) (rounds : Nat) :
    climb operand bound rounds left p = (.ok left, p) := by
  cases rounds with
  | zero => rfl
  | succ rounds =>
    unfold climb
    exact if_neg stopped

theorem climb_unruled (unruled : p.table.continuation p.peek.kind = none) (rounds : Nat) :
    climb operand bound rounds left p = (.ok left, p) := by
  cases rounds with
  | zero => rfl
  | succ rounds =>
    unfold climb
    split
    · rw [unruled]
    · rfl

theorem climb_step {step : Continuation} (more : continues bound p = true)
    (ruled : p.table.continuation p.peek.kind = some step) (rounds : Nat) :
    climb operand bound (rounds + 1) left p =
      (continuation operand left step >>= climb operand bound rounds) p.advance := by
  unfold climb
  rw [if_pos more, ruled]
  rfl

end Expression

theorem Parser.Shows.continues {p q : Parser} (shown : p.Shows q) (bound : Precedence) :
    Expression.continues bound q = Expression.continues bound p := by
  rw [Expression.continues, Expression.continues, Parser.peekPrecedence, Parser.peekPrecedence,
    shown.table, shown.peek]

namespace Rule.Relation

variable (related : Relation)

theorem self {rule : Rule α}
    (found : ∀ p : Parser, ∃ same : Rule α, (∀ q, p.Shows q → rule q = same q) ∧
      related.holds same same) : related.holds rule rule := by
  apply related.look
  intro p
  obtain ⟨same, does, related⟩ := found p
  exact ⟨same, same, fun q shown => ⟨does q shown, does q shown⟩, related⟩

theorem here : related.holds Rule.here Rule.here := by
  apply related.self
  intro p
  refine ⟨Pure.pure p.current, fun q shown => ?_, related.pure _⟩
  rw [Rule.here, pure_apply, shown.current]

theorem strength : related.holds Rule.strength Rule.strength := by
  apply related.self
  intro p
  refine ⟨Pure.pure p.currentPrecedence, fun q shown => ?_, related.pure _⟩
  rw [Rule.strength, pure_apply, Parser.currentPrecedence, Parser.currentPrecedence, shown.table,
    shown.current]

theorem name : related.holds Rule.name Rule.name := by
  apply related.self
  intro p
  refine ⟨Pure.pure ⟨p.current, p.current.text⟩, fun q shown => ?_, related.pure _⟩
  rw [Rule.name, pure_apply, shown.current]

theorem ite {condition : Prop} [Decidable condition] {first second other otherToo : Rule α}
    (yes : related.holds first other) (no : related.holds second otherToo) :
    related.holds (if condition then first else second)
      (if condition then other else otherToo) := by
  split
  · exact yes
  · exact no

theorem expect (wanted : Kind) : related.holds (Rule.expect wanted) (Rule.expect wanted) := by
  apply related.self
  intro p
  by_cases found : p.peek.kind = wanted
  · refine ⟨Rule.advance, fun q shown => ?_, related.advance⟩
    rw [← shown.peek] at found
    exact if_pos found
  · refine ⟨Rule.fail (.unexpected wanted p.peek.kind) p.peek, fun q shown => ?_, related.fail _ _⟩
    rw [← shown.peek] at found ⊢
    exact if_neg found

theorem accept (kind : Kind) : related.holds (Rule.accept kind) (Rule.accept kind) := by
  apply related.self
  intro p
  by_cases found : p.peek.kind = kind
  · refine ⟨Rule.advance >>= fun _ => Pure.pure true, fun q shown => ?_,
      related.bind related.advance fun _ => related.pure true⟩
    rw [← shown.peek] at found
    exact accept_yes found
  · refine ⟨Pure.pure false, fun q shown => ?_, related.pure false⟩
    rw [← shown.peek] at found
    exact accept_no found

section

variable {operand other : Operand}
variable (operands : ∀ bound, related.holds (operand bound) (other bound))

include operands

theorem binding : related.holds (Statement.binding operand) (Statement.binding other) :=
  related.bind related.here fun _ => related.bind (related.expect _) fun _ =>
    related.bind related.name fun _ => related.bind (related.expect _) fun _ =>
      related.bind related.advance fun _ => related.bind (operands _) fun _ =>
        related.bind (related.accept _) fun _ => related.pure _

theorem result : related.holds (Statement.result operand) (Statement.result other) :=
  related.bind related.here fun _ => related.bind related.advance fun _ =>
    related.bind (operands _) fun _ => related.bind (related.accept _) fun _ => related.pure _

theorem expression : related.holds (Statement.expression operand) (Statement.expression other) :=
  related.bind related.here fun _ => related.bind (operands _) fun _ =>
    related.bind (related.accept _) fun _ => related.pure _

theorem any : related.holds (Statement.any operand) (Statement.any other) := by
  apply related.look
  intro p
  cases kind : p.current.kind with
  | letWord =>
    refine ⟨_, _, fun q shown => ?_, related.binding operands⟩
    rw [← shown.current] at kind
    exact ⟨by rw [Statement.any, kind], by rw [Statement.any, kind]⟩
  | returnWord =>
    refine ⟨_, _, fun q shown => ?_, related.result operands⟩
    rw [← shown.current] at kind
    exact ⟨by rw [Statement.any, kind], by rw [Statement.any, kind]⟩
  | _ =>
    refine ⟨_, _, fun q shown => ?_, related.expression operands⟩
    rw [← shown.current] at kind
    exact ⟨by rw [Statement.any, kind], by rw [Statement.any, kind]⟩

theorem sequence (closes : Kind → Bool) (rounds : Nat) :
    related.holds (always (Statement.sequence operand closes rounds))
      (always (Statement.sequence other closes rounds)) := by
  induction rounds with
  | zero => exact related.pure []
  | succ rounds ih =>
    apply related.look
    intro p
    have round := related.bind (related.attempt (related.any operands)) fun statement =>
      related.bind related.advance fun _ => related.bind ih fun statements =>
        related.pure (statement.toList ++ statements)
    refine ⟨if closes p.current.kind then _ else _, if closes p.current.kind then _ else _,
      fun q shown => ?_, related.ite (related.pure []) round⟩
    have one := Statement.always_sequence_succ operand closes rounds q
    have two := Statement.always_sequence_succ other closes rounds q
    rw [shown.current] at one two
    exact ⟨one, two⟩

theorem block :
    related.holds (always (Statement.block operand)) (always (Statement.block other)) := by
  apply related.look
  intro p
  refine ⟨_, _, fun q shown => ?_, related.bind related.advance fun _ =>
    related.bind (related.sequence operands Statement.endsBlock p.span) fun statements =>
      related.pure (.mk p.current statements)⟩
  have one := Statement.always_block operand q
  have two := Statement.always_block other q
  rw [shown.span, shown.current] at one two
  exact ⟨one, two⟩

omit operands in
theorem integer : related.holds Expression.integer Expression.integer := by
  apply related.self
  intro p
  cases read : Expression.integerValue? p.current.text with
  | none =>
    refine ⟨Rule.fail (.badInteger p.current.text) p.current, fun q shown => ?_, related.fail _ _⟩
    rw [Expression.integer, shown.current, read]
  | some value =>
    refine ⟨Pure.pure (.integer p.current value), fun q shown => ?_, related.pure _⟩
    rw [Expression.integer, shown.current, read]
    rfl

theorem unary : related.holds (Expression.unary operand) (Expression.unary other) :=
  related.bind related.here fun _ => related.bind related.advance fun _ =>
    related.bind (operands _) fun _ => related.pure _

theorem group : related.holds (Expression.group operand) (Expression.group other) :=
  related.bind related.advance fun _ => related.bind (operands _) fun _ =>
    related.bind (related.expect _) fun _ => related.pure _

theorem conditional :
    related.holds (Expression.conditional operand) (Expression.conditional other) :=
  related.bind related.here fun _ => related.bind (related.expect _) fun _ =>
    related.bind related.advance fun _ => related.bind (operands _) fun _ =>
      related.bind (related.expect _) fun _ => related.bind (related.expect _) fun _ =>
        related.bind (related.block operands) fun _ => related.bind (related.accept _) fun _ =>
          related.ite (related.bind (related.expect _) fun _ =>
            related.bind (related.block operands) fun _ => related.pure _) (related.pure _)

omit operands in
theorem moreParameters (rounds : Nat) :
    related.holds (Expression.moreParameters rounds) (Expression.moreParameters rounds) := by
  induction rounds with
  | zero => exact related.pure _
  | succ rounds ih =>
    exact related.bind (related.accept _) fun _ => related.ite
      (related.bind (related.expect _) fun _ => related.bind related.name fun _ =>
        related.bind ih fun _ => related.pure _) (related.pure _)

omit operands in
theorem parameters : related.holds Expression.parameters Expression.parameters :=
  have further : related.holds (fun p => Expression.moreParameters p.span p)
      (fun p => Expression.moreParameters p.span p) :=
    related.self fun p => ⟨Expression.moreParameters p.span, fun q shown => by rw [shown.span],
      related.moreParameters p.span⟩
  related.bind (related.accept _) fun _ => related.ite (related.pure _)
    (related.bind (related.expect _) fun _ => related.bind related.name fun _ =>
      related.bind further fun _ => related.bind (related.expect _) fun _ => related.pure _)

theorem function : related.holds (Expression.function operand) (Expression.function other) :=
  related.bind related.here fun _ => related.bind (related.expect _) fun _ =>
    related.bind related.parameters fun _ => related.bind (related.expect _) fun _ =>
      related.bind (related.block operands) fun _ => related.pure _

theorem moreItems (rounds : Nat) :
    related.holds (Expression.moreItems operand rounds) (Expression.moreItems other rounds) := by
  induction rounds with
  | zero => exact related.pure _
  | succ rounds ih =>
    exact related.bind (related.accept _) fun _ => related.ite
      (related.bind related.advance fun _ => related.bind (operands _) fun _ =>
        related.bind ih fun _ => related.pure _) (related.pure _)

theorem spannedItems :
    related.holds (fun p => Expression.moreItems operand p.span p)
      (fun p => Expression.moreItems other p.span p) :=
  related.look fun p => ⟨Expression.moreItems operand p.span, Expression.moreItems other p.span,
    fun q shown => by rw [shown.span]; exact ⟨rfl, rfl⟩, related.moreItems operands p.span⟩

theorem items (closing : Kind) :
    related.holds (Expression.items operand closing) (Expression.items other closing) :=
  related.bind (related.accept _) fun _ => related.ite (related.pure _)
    (related.bind related.advance fun _ => related.bind (operands _) fun _ =>
      related.bind (related.spannedItems operands) fun _ => related.bind (related.expect _) fun _ =>
        related.pure _)

theorem opening (rule : Opening) :
    related.holds (Expression.opening operand rule) (Expression.opening other rule) := by
  cases rule with
  | name => exact related.bind related.name fun _ => related.pure _
  | integer => exact related.integer
  | string => exact related.bind related.here fun _ => related.pure _
  | boolean => exact related.bind related.here fun _ => related.pure _
  | unary => exact related.unary operands
  | group => exact related.group operands
  | conditional => exact related.conditional operands
  | function => exact related.function operands
  | array =>
    exact related.bind related.here fun _ => related.bind (related.items operands _) fun _ =>
      related.pure _

theorem continuation (left : Expr) (rule : Continuation) :
    related.holds (Expression.continuation operand left rule)
      (Expression.continuation other left rule) := by
  cases rule with
  | binary =>
    exact related.bind related.here fun _ => related.bind related.strength fun _ =>
      related.bind related.advance fun _ => related.bind (operands _) fun _ => related.pure _
  | call =>
    exact related.bind related.here fun _ => related.bind (related.items operands _) fun _ =>
      related.pure _
  | index =>
    exact related.bind related.here fun _ => related.bind related.advance fun _ =>
      related.bind (operands _) fun _ => related.bind (related.expect _) fun _ => related.pure _

theorem climb (bound : Precedence) (rounds : Nat) (left : Expr) :
    related.holds (Expression.climb operand bound rounds left)
      (Expression.climb other bound rounds left) := by
  induction rounds generalizing left with
  | zero => exact related.pure left
  | succ rounds ih =>
    apply related.look
    intro p
    by_cases more : Expression.continues bound p = true
    · cases ruled : p.table.continuation p.peek.kind with
      | none =>
        refine ⟨Pure.pure left, Pure.pure left, fun q shown => ?_, related.pure left⟩
        rw [← shown.table, ← shown.peek] at ruled
        exact ⟨Expression.climb_unruled ruled _, Expression.climb_unruled ruled _⟩
      | some step =>
        refine ⟨Rule.advance >>= fun _ => Expression.continuation operand left step >>=
            Expression.climb operand bound rounds,
          Rule.advance >>= fun _ => Expression.continuation other left step >>=
            Expression.climb other bound rounds, fun q shown => ?_, ?_⟩
        · rw [← shown.continues] at more
          rw [← shown.table, ← shown.peek] at ruled
          exact ⟨Expression.climb_step more ruled _, Expression.climb_step more ruled _⟩
        exact related.bind related.advance fun _ =>
          related.bind (related.continuation operands left step) ih
    · refine ⟨Pure.pure left, Pure.pure left, fun q shown => ?_, related.pure left⟩
      rw [← shown.continues] at more
      exact ⟨Expression.climb_stop more _, Expression.climb_stop more _⟩

theorem start (bound : Precedence) :
    related.holds (Expression.start operand bound) (Expression.start other bound) := by
  apply related.look
  intro p
  cases opens : p.table.opening p.current.kind with
  | none =>
    refine ⟨_, _, fun q shown => ?_, related.fail (.noOpening p.current.kind) p.current⟩
    rw [Expression.start, Expression.start, shown.table, shown.current, opens]
    exact ⟨rfl, rfl⟩
  | some rule =>
    refine ⟨_, _, fun q shown => ?_, related.bind (related.opening operands rule) fun left =>
      related.climb operands bound p.span left⟩
    rw [Expression.start, Expression.start, shown.table, shown.current, shown.span, opens]
    exact ⟨rfl, rfl⟩

end

end Rule.Relation

end PrattFrontEnd
