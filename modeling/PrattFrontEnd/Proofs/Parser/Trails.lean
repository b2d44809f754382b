import PrattFrontEnd.Proofs.Parser.Steady

/-!
The parsers that a rule passes through. A trail lists them in order, from where the rule starts to where
it ends; it is put together the way its rule is, with a step for every move, every line in the log,
and the two steps into an expression and out of it. That each of these steps is one of a walk comes
with the trail. Main definition: `Rule.Trail.within`, the trail of an expression, which goes inwards
only where the cap leaves room.
-/
namespace PrattFrontEnd

open Rule

namespace Parser

/-- What a parser may become at once: it moves the window, writes to the log, goes into an expression,
for which there must be room, or comes out of one. -/
inductive Step (p : Parser) : Parser → Prop
  | advance : Step p p.advance
  | note (event : Event) : Step p (p.note event)
  | inwards (room : (p.depth : Int) < p.maxDepth) : Step p { p with depth := p.depth + 1 }
  | outwards : Step p { p with depth := p.depth - 1 }

/-- From one parser to another, step by step, through all that are passed on the way. -/
inductive Walk : Parser → List Parser → Parser → Prop
  | stay {p : Parser} : Walk p [] p
  | step {p q r : Parser} {trail : List Parser} (first : p.Step q) (further : Walk q trail r) :
      Walk p (q :: trail) r

theorem Step.walk {p q : Parser} (step : p.Step q) : p.Walk [q] q := .step step .stay

theorem Walk.trans {p q r : Parser} {trail more : List Parser} (first : p.Walk trail q)
    (second : q.Walk more r) : p.Walk (trail ++ more) r := by
  induction first with
  | stay => exact second
  | step first _ ih => exact .step first (ih second)

def skipping (opened : Nat) (p : Parser) : List Parser :=
  if p.current.kind = .eof then []
  else if _last : p.peek.kind = .eof then []
  else if openBraces opened p.current.kind = 0 &&
      (p.current.kind = .semicolon || p.peek.kind = .rightBrace) then []
  else p.advance :: skipping (openBraces opened p.current.kind) p.advance
termination_by p.unread
decreasing_by exact unread_advance_lt _last

theorem walk_skipStatement (opened : Nat) (p : Parser) :
    p.Walk (p.skipping opened) (p.skipStatement opened) := by
  fun_induction skipping opened p with
  | case1 opened p ended =>
    rw [skipStatement, if_pos ended]
    exact .stay
  | case2 opened p more last =>
    rw [skipStatement, if_neg more, dif_pos last]
    exact .stay
  | case3 opened p more further boundary =>
    rw [skipStatement, if_neg more, dif_neg further, if_pos boundary]
    exact .stay
  | case4 opened p more further inner ih =>
    rw [skipStatement, if_neg more, dif_neg further, if_neg inner]
    exact .step .advance ih

def synchronizing (p : Parser) : List Parser :=
  p.note (.skipping p.current) :: (p.note (.skipping p.current)).skipping 0

theorem walk_synchronize (p : Parser) : p.Walk p.synchronizing p.synchronize :=
  .step (.note _) (walk_skipStatement 0 _)

end Parser

/-- The trail of a rule that starts where so many more expressions may be opened inside one another. -/
structure Rule.Trail (levels : Nat) (rule : Rule α) where
  steady : rule.Steady
  passes : Parser → List Parser
  walks : ∀ p : Parser, p.levels = levels → p.Walk (passes p) (rule p).2

namespace Rule.Trail

variable {levels : Nat}

def pure (a : α) : Trail levels (Pure.pure a : Rule α) where
  steady := Relation.steady.pure a
  passes _ := []
  walks _ _ := .stay

def bind {first : Rule α} {next : α → Rule β} (before : Trail levels first)
    (after : ∀ a, Trail levels (next a)) : Trail levels (first >>= next) where
  steady := before.steady.bind fun a => (after a).steady
  passes p := before.passes p ++
    match first p with
    | (.ok a, q) => (after a).passes q
    | (.error _, _) => []
  walks p level := by
    have ahead := before.walks p level
    have same := (before.steady p).moves.levels
    rw [bind_apply]
    cases run : first p with
    | mk result q =>
      rw [run] at ahead same
      cases result with
      | ok a => exact ahead.trans ((after a).walks q (same.trans level))
      | error failure => exact ahead.trans .stay

def look {rule : Rule α} (same : Parser → Rule α) (does : ∀ p, rule p = same p p)
    (trail : ∀ p, Trail levels (same p)) : Trail levels rule where
  steady p := by
    rw [does]
    exact (trail p).steady p
  passes p := (trail p).passes p
  walks p level := by
    rw [does]
    exact (trail p).walks p level

def ite {condition : Prop} [Decidable condition] {first second : Rule α}
    (yes : Trail levels first) (no : Trail levels second) :
    Trail levels (if condition then first else second) where
  steady := by
    split
    · exact yes.steady
    · exact no.steady
  passes p := if condition then yes.passes p else no.passes p
  walks p level := by
    split
    · exact yes.walks p level
    · exact no.walks p level

def advance : Trail levels Rule.advance where
  steady := Relation.steady.advance
  passes p := [p.advance]
  walks _ _ := Parser.Step.advance.walk

def fail (diagnostic : Diagnostic) (token : Token) :
    Trail levels (Rule.fail diagnostic token : Rule α) where
  steady := Relation.steady.fail diagnostic token
  passes p := [p.report ⟨diagnostic, token⟩]
  walks _ _ := (Parser.Step.note _).walk

def attempt {rule : Rule α} (trail : Trail levels rule) : Trail levels rule.attempt where
  steady := trail.steady.attempt
  passes p := trail.passes p ++
    match rule p with
    | (.ok _, _) => []
    | (.error _, q) => q.synchronizing
  walks p level := by
    have ahead := trail.walks p level
    unfold Rule.attempt
    cases run : rule p with
    | mk result q =>
      rw [run] at ahead
      cases result with
      | ok a => exact ahead.trans .stay
      | error failure => exact ahead.trans q.walk_synchronize

def here : Trail levels Rule.here := look (fun p => Pure.pure p.current) (fun _ => rfl) fun _ => pure _

def strength : Trail levels Rule.strength :=
  look (fun p => Pure.pure p.currentPrecedence) (fun _ => rfl) fun _ => pure _

def name : Trail levels Rule.name :=
  look (fun p => Pure.pure ⟨p.current, p.current.text⟩) (fun _ => rfl) fun _ => pure _

def expect (wanted : Kind) : Trail levels (Rule.expect wanted) :=
  look
    (fun p => if p.peek.kind = wanted then Rule.advance
      else Rule.fail (.unexpected wanted p.peek.kind) p.peek)
    (fun p => by
      unfold Rule.expect
      split <;> rfl)
    fun _ => ite advance (fail _ _)

def accept (kind : Kind) : Trail levels (Rule.accept kind) :=
  look
    (fun p => if p.peek.kind = kind then Rule.advance >>= fun _ => Pure.pure true else Pure.pure false)
    (fun p => by
      unfold Rule.accept
      split <;> rfl)
    fun _ => ite (bind advance fun _ => pure true) (pure false)

section

variable {operand : Operand} (operands : ∀ bound, Trail levels (operand bound))

def binding : Trail levels (Statement.binding operand) :=
  bind here fun _ => bind (expect _) fun _ => bind name fun _ => bind (expect _) fun _ =>
    bind advance fun _ => bind (operands _) fun _ => bind (accept _) fun _ => pure _

def result : Trail levels (Statement.result operand) :=
  bind here fun _ => bind advance fun _ => bind (operands _) fun _ => bind (accept _) fun _ => pure _

def expression : Trail levels (Statement.expression operand) :=
  bind here fun _ => bind (operands _) fun _ => bind (accept _) fun _ => pure _

def any : Trail levels (Statement.any operand) where
  steady := Statement.steady_any fun bound => (operands bound).steady
  passes p :=
    match p.current.kind with
    | .letWord => (binding operands).passes p
    | .returnWord => (result operands).passes p
    | _ => (expression operands).passes p
  walks p level := by
    unfold Statement.any
    cases p.current.kind with
    | letWord => exact (binding operands).walks p level
    | returnWord => exact (result operands).walks p level
    | _ => exact (expression operands).walks p level

def sequence (closes : Kind → Bool) :
    (rounds : Nat) → Trail levels (always (Statement.sequence operand closes rounds))
  | 0 => pure []
  | rounds + 1 =>
    look _ (Statement.always_sequence_succ operand closes rounds) fun _ =>
      ite (pure []) (bind (attempt (any operands)) fun _ => bind advance fun _ =>
        bind (sequence closes rounds) fun _ => pure _)

def block : Trail levels (always (Statement.block operand)) :=
  look _ (Statement.always_block operand) fun p =>
    bind advance fun _ => bind (sequence operands Statement.endsBlock p.span) fun _ => pure _

def integer : Trail levels Expression.integer where
  steady := Relation.steady.integer
  passes p :=
    match Expression.integerValue? p.current.text with
    | some _ => []
    | none => [p.report ⟨.badInteger p.current.text, p.current⟩]
  walks p _ := by
    unfold Expression.integer
    cases Expression.integerValue? p.current.text with
    | some value => exact .stay
    | none => exact (Parser.Step.note _).walk

def unary : Trail levels (Expression.unary operand) :=
  bind here fun _ => bind advance fun _ => bind (operands _) fun _ => pure _

def group : Trail levels (Expression.group operand) :=
  bind advance fun _ => bind (operands _) fun _ => bind (expect _) fun _ => pure _

def conditional : Trail levels (Expression.conditional operand) :=
  bind here fun _ => bind (expect _) fun _ => bind advance fun _ => bind (operands _) fun _ =>
    bind (expect _) fun _ => bind (expect _) fun _ => bind (block operands) fun _ =>
      bind (accept _) fun _ => ite
        (bind (expect _) fun _ => bind (block operands) fun _ => pure _) (pure _)

def moreParameters : (rounds : Nat) → Trail levels (Expression.moreParameters rounds)
  | 0 => pure []
  | rounds + 1 => bind (accept _) fun _ => ite
      (bind (expect _) fun _ => bind name fun _ => bind (moreParameters rounds) fun _ => pure _)
      (pure [])

def parameters : Trail levels Expression.parameters :=
  bind (accept _) fun _ => ite (pure [])
    (bind (expect _) fun _ => bind name fun _ =>
      bind (look (fun p => Expression.moreParameters p.span) (fun _ => rfl) fun p =>
        moreParameters p.span) fun _ => bind (expect _) fun _ => pure _)

def function : Trail levels (Expression.function operand) :=
  bind here fun _ => bind (expect _) fun _ => bind parameters fun _ => bind (expect _) fun _ =>
    bind (block operands) fun _ => pure _

def moreItems : (rounds : Nat) → Trail levels (Expression.moreItems operand rounds)
  | 0 => pure []
  | rounds + 1 => bind (accept _) fun _ => ite
      (bind advance fun _ => bind (operands _) fun _ => bind (moreItems rounds) fun _ => pure _)
      (pure [])

def items (closing : Kind) : Trail levels (Expression.items operand closing) :=
  bind (accept _) fun _ => ite (pure [])
    (bind advance fun _ => bind (operands _) fun _ =>
      bind (look (fun p => Expression.moreItems operand p.span) (fun _ => rfl) fun p =>
        moreItems operands p.span) fun _ => bind (expect _) fun _ => pure _)

def opening : (rule : Opening) → Trail levels (Expression.opening operand rule)
  | .name => bind name fun _ => pure _
  | .integer => integer
  | .string => bind here fun _ => pure _
  | .boolean => bind here fun _ => pure _
  | .unary => unary operands
  | .group => group operands
  | .conditional => conditional operands
  | .function => function operands
  | .array => bind here fun _ => bind (items operands _) fun _ => pure _

def continuation (left : Expr) :
    (rule : Continuation) → Trail levels (Expression.continuation operand left rule)
  | .binary => bind here fun _ => bind strength fun _ => bind advance fun _ =>
      bind (operands _) fun _ => pure _
  | .call => bind here fun _ => bind (items operands _) fun _ => pure _
  | .index => bind here fun _ => bind advance fun _ => bind (operands _) fun _ =>
      bind (expect _) fun _ => pure _

def climb (bound : Precedence) :
    (rounds : Nat) → (left : Expr) → Trail levels (Expression.climb operand bound rounds left)
  | 0, left => pure left
  | rounds + 1, left =>
    let round (step : Continuation) := bind (α := Unit) advance fun _ =>
      bind (continuation operands left step) (climb bound rounds)
    { steady := Relation.steady.climb
        (Relation.steady_operand fun bound => (operands bound).steady) bound _ left
      passes := fun p =>
        if Expression.continues bound p then
          match p.table.continuation p.peek.kind with
          | none => []
          | some step => (round step).passes p
        else []
      walks := fun p level => by
        by_cases more : Expression.continues bound p = true
        · rw [if_pos more]
          cases ruled : p.table.continuation p.peek.kind with
          | none =>
            rw [Expression.climb_unruled ruled]
            exact .stay
          | some step =>
            rw [Expression.climb_step more ruled]
            exact (round step).walks p level
        · rw [if_neg more, Expression.climb_stop more]
          exact .stay }

def start (bound : Precedence) : Trail levels (Expression.start operand bound) where
  steady := Expression.steady_start (fun bound => (operands bound).steady) bound
  passes p :=
    match p.table.opening p.current.kind with
    | none => [p.report ⟨.noOpening p.current.kind, p.current⟩]
    | some rule => (bind (opening operands rule) (climb operands bound p.span)).passes p
  walks p level := by
    unfold Expression.start
    cases p.table.opening p.current.kind with
    | none => exact (Parser.Step.note _).walk
    | some rule => exact (bind (opening operands rule) (climb operands bound p.span)).walks p level

end

/-- The trail of an expression goes inwards, along the trail of the rules that apply there, and out
again. -/
def within : (levels : Nat) → (bound : Precedence) → Trail levels (Expression.within levels bound)
  | 0, _ => look (fun p => Rule.fail (.tooDeep p.maxDepth) p.current) (fun _ => rfl) fun _ => fail _ _
  | levels + 1, bound =>
    { steady := Expression.steady_within (levels + 1) bound
      passes := fun p =>
        let inner : Parser := { p with depth := p.depth + 1 }
        let last := (Expression.start (Expression.within levels) bound inner).2
        inner :: (start (within levels) bound).passes inner ++ [{ last with depth := last.depth - 1 }]
      walks := fun p level => by
        have room : (p.depth : Int) < p.maxDepth := by
          unfold Parser.levels at level
          omega
        have further : ({ p with depth := p.depth + 1 } : Parser).levels = levels := by
          unfold Parser.levels at level ⊢
          simp only [Int.natCast_add]
          omega
        have behind := (start (within levels) bound).walks _ further
        exact .step (.inwards room) (behind.trans Parser.Step.outwards.walk) }

def program {operand : Operand} (operands : ∀ bound, Trail levels (operand bound)) :
    Trail levels (always (Statement.program operand)) where
  steady p := by
    have reaches := (sequence operands Statement.endsProgram p.span).steady p
    exact .of_ok (reaches.moves.note _)
  passes p := (sequence operands Statement.endsProgram p.span).passes p ++
    [(Statement.program operand p).2]
  walks p level :=
    ((sequence operands Statement.endsProgram p.span).walks p level).trans (Parser.Step.note _).walk

end Rule.Trail

end PrattFrontEnd
