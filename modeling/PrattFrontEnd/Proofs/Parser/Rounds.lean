import PrattFrontEnd.Proofs.Parser.Steady

/-!
The loops of the parser without their rounds. A loop moves the window in every round, so the rounds
it is given never run out before the tokens do. Main statements: `onward_step`, `furtherItems_step`,
`furtherParameters_step`, `statements_built` and `statements_dropped`, the equations of the unbounded
loops.
-/
namespace PrattFrontEnd

open Rule

theorem Rule.bind_same {first : Rule α} {next other : α → Rule β} {p : Parser}
    (same : ∀ a q, first p = (.ok a, q) → next a q = other a q) :
    (first >>= next) p = (first >>= other) p := by
  rw [bind_apply, bind_apply]
  cases run : first p with
  | mk result q =>
    cases result with
    | ok a => exact same a q run
    | error failure => rfl

theorem Rule.bind_assoc (first : Rule α) (second : α → Rule β) (third : β → Rule γ) :
    first >>= second >>= third = first >>= fun a => second a >>= third := by
  funext p
  simp only [bind_apply]
  cases first p with
  | mk result q => cases result <;> rfl

theorem Rule.Steady.reaches {rule : Rule α} (steady : rule.Steady) {p q : Parser}
    {result : Except Failure α} (run : rule p = (result, q)) : p.Reaches q := by
  have moves := (steady p).moves
  rw [run] at moves
  exact moves

theorem Rule.Steady.reaches_behind {first : Rule α} {next : α → Rule β}
    (after : ∀ a, (next a).Steady) (p : Parser) : (first p).2.Reaches ((first >>= next) p).2 := by
  rw [bind_apply]
  cases first p with
  | mk result q =>
    cases result with
    | ok a => exact (after a q).moves
    | error failure => exact .refl

theorem Rule.Steady.clean {rule : Rule α} (steady : rule.Steady) {p q : Parser}
    {result : Except Failure α} (run : rule p = (result, q)) (clean : q.diagnostics = []) :
    p.diagnostics = [] :=
  (steady.reaches run).clean clean

theorem Parser.horizon_lt_of_advance {p q : Parser} (more : p.peek.kind ≠ .eof)
    (reaches : p.advance.Reaches q) : q.horizon < p.horizon :=
  Nat.lt_of_le_of_lt reaches.horizon_le (horizon_advance_lt (horizon_pos_of_peek more))

namespace Expression

def onward (operand : Operand) (bound : Precedence) (left : Expr) : Rule Expr := fun p =>
  climb operand bound p.span left p

def furtherItems (operand : Operand) : Rule (List Expr) := fun p => moreItems operand p.span p

def furtherParameters : Rule (List Name) := fun p => moreParameters p.span p

theorem steady_furtherItems {operand : Operand} (steady : ∀ bound, (operand bound).Steady) :
    (furtherItems operand).Steady :=
  fun p => steady_moreItems steady p.span p

theorem steady_onward {operand : Operand} (steady : ∀ bound, (operand bound).Steady)
    (bound : Precedence) (left : Expr) : (onward operand bound left).Steady :=
  fun p => Relation.steady.climb (Relation.steady_operand steady) bound p.span left p

theorem peek_ne_eof_of_continues {bound : Precedence} {p : Parser}
    (silent : p.table.precedenceOf .eof = .lowest) (more : continues bound p = true) :
    p.peek.kind ≠ .eof := by
  intro ended
  simp only [continues, Parser.peekPrecedence, ended, silent, Bool.and_eq_true,
    decide_eq_true_eq] at more
  have tighter := Precedence.lt_iff_rank.1 more.2
  cases bound <;> simp [Precedence.rank] at tighter

section climbing

variable {operand : Operand} {bound : Precedence} {left : Expr} {p : Parser}

theorem climb_rounds (steady : ∀ bound, (operand bound).Steady) (rounds others : Nat)
    (silent : p.table.precedenceOf .eof = .lowest) (enough : p.horizon ≤ rounds)
    (enoughToo : p.horizon ≤ others) :
    climb operand bound rounds left p = climb operand bound others left p := by
  induction rounds generalizing others left p with
  | zero =>
    have stopped : ¬ continues bound p = true := by
      intro more
      have left := Parser.horizon_pos_of_peek (peek_ne_eof_of_continues silent more)
      omega
    rw [climb_stop stopped, climb_stop stopped]
  | succ rounds ih =>
    by_cases more : continues bound p = true
    · have next := peek_ne_eof_of_continues silent more
      have ahead := Parser.horizon_pos_of_peek next
      obtain ⟨others, rfl⟩ : ∃ n, others = n + 1 := ⟨others - 1, by omega⟩
      cases ruled : p.table.continuation p.peek.kind with
      | none => rw [climb_unruled ruled, climb_unruled ruled]
      | some step =>
        rw [climb_step more ruled, climb_step more ruled]
        apply Rule.bind_same
        intro longer q built
        have reaches := (steady_continuation steady left step).reaches built
        have shorter := Parser.horizon_lt_of_advance next reaches
        have still : q.table.precedenceOf .eof = .lowest := by
          rw [reaches.table]
          exact silent
        exact ih others still (by omega) (by omega)
    · rw [climb_stop more, climb_stop more]

theorem onward_stop (stopped : ¬ continues bound p = true) :
    onward operand bound left p = (.ok left, p) :=
  climb_stop stopped p.span

theorem onward_step (steady : ∀ bound, (operand bound).Steady) {step : Continuation}
    (silent : p.table.precedenceOf .eof = .lowest) (rounds : p.horizon ≤ p.span)
    (more : continues bound p = true)
    (ruled : p.table.continuation p.peek.kind = some step) :
    onward operand bound left p =
      (continuation operand left step >>= onward operand bound) p.advance := by
  have further : onward operand bound left p = climb operand bound (p.span + 1) left p :=
    climb_rounds steady _ _ silent rounds (Nat.le_succ_of_le rounds)
  rw [further, climb_step more ruled]
  apply Rule.bind_same
  intro longer q built
  have reaches := (steady_continuation steady left step).reaches built
  have span : q.span = p.span := reaches.span
  rw [onward, span]

theorem start_opened (steady : ∀ bound, (operand bound).Steady) {rule : Opening}
    (opens : p.table.opening p.current.kind = some rule) (bound : Precedence) :
    start operand bound p = (opening operand rule >>= onward operand bound) p := by
  rw [start, opens]
  apply Rule.bind_same
  intro left q built
  have span : q.span = p.span := ((steady_opening steady rule).reaches built).span
  rw [onward, span]

end climbing

section listing

variable {operand : Operand} {p : Parser}

theorem moreItems_stop (stopped : p.peek.kind ≠ .comma) (rounds : Nat) :
    moreItems operand rounds p = (.ok [], p) := by
  cases rounds with
  | zero => rfl
  | succ rounds =>
    rw [moreItems, bind_of_ok (accept_no stopped)]
    rfl

theorem moreItems_step (more : p.peek.kind = .comma) (rounds : Nat) :
    moreItems operand (rounds + 1) p =
      (do
        let item ← operand .lowest
        let items ← moreItems operand rounds
        return item :: items : Rule (List Expr)) p.advance.advance := by
  rw [moreItems, bind_of_ok (accept_yes more)]
  rfl

theorem moreItems_rounds (steady : ∀ bound, (operand bound).Steady) (rounds others : Nat)
    (enough : p.horizon ≤ rounds) (enoughToo : p.horizon ≤ others) :
    moreItems operand rounds p = moreItems operand others p := by
  induction rounds generalizing others p with
  | zero =>
    have stopped : p.peek.kind ≠ .comma := by
      intro comma
      have left := Parser.horizon_pos_of_peek (p := p) (by rw [comma]; decide)
      omega
    rw [moreItems_stop stopped, moreItems_stop stopped]
  | succ rounds ih =>
    by_cases more : p.peek.kind = .comma
    · have next : p.peek.kind ≠ .eof := by rw [more]; decide
      have ahead := Parser.horizon_pos_of_peek next
      obtain ⟨others, rfl⟩ : ∃ n, others = n + 1 := ⟨others - 1, by omega⟩
      rw [moreItems_step more, moreItems_step more]
      apply Rule.bind_same
      intro item q built
      have reaches := Parser.Reaches.refl.advance.trans ((steady _).reaches built)
      have shorter := Parser.horizon_lt_of_advance next reaches
      rw [bind_apply, bind_apply, ih others (by omega) (by omega)]
    · rw [moreItems_stop more, moreItems_stop more]

theorem furtherItems_stop (stopped : p.peek.kind ≠ .comma) :
    furtherItems operand p = (.ok [], p) :=
  moreItems_stop stopped p.span

theorem furtherItems_step (steady : ∀ bound, (operand bound).Steady)
    (rounds : p.horizon ≤ p.span) (more : p.peek.kind = .comma) :
    furtherItems operand p =
      (do
        let item ← operand .lowest
        let items ← furtherItems operand
        return item :: items : Rule (List Expr)) p.advance.advance := by
  have further : furtherItems operand p = moreItems operand (p.span + 1) p :=
    moreItems_rounds steady _ _ rounds (Nat.le_succ_of_le rounds)
  rw [further, moreItems_step more]
  apply Rule.bind_same
  intro item q built
  have span : q.span = p.span :=
    (Parser.Reaches.refl.advance.trans ((steady _).reaches built)).span
  rw [bind_apply, bind_apply, furtherItems, span]

theorem moreParameters_stop (stopped : p.peek.kind ≠ .comma) (rounds : Nat) :
    moreParameters rounds p = (.ok [], p) := by
  cases rounds with
  | zero => rfl
  | succ rounds =>
    rw [moreParameters, bind_of_ok (accept_no stopped)]
    rfl

theorem moreParameters_step (more : p.peek.kind = .comma) (rounds : Nat) :
    moreParameters (rounds + 1) p =
      (do
        expect .identifier
        let name ← name
        let names ← moreParameters rounds
        return name :: names : Rule (List Name)) p.advance := by
  rw [moreParameters, bind_of_ok (accept_yes more)]
  rfl

theorem moreParameters_rounds (rounds others : Nat) (enough : p.horizon ≤ rounds)
    (enoughToo : p.horizon ≤ others) : moreParameters rounds p = moreParameters others p := by
  induction rounds generalizing others p with
  | zero =>
    have stopped : p.peek.kind ≠ .comma := by
      intro comma
      have left := Parser.horizon_pos_of_peek (p := p) (by rw [comma]; decide)
      omega
    rw [moreParameters_stop stopped, moreParameters_stop stopped]
  | succ rounds ih =>
    by_cases more : p.peek.kind = .comma
    · have next : p.peek.kind ≠ .eof := by rw [more]; decide
      have ahead := Parser.horizon_pos_of_peek next
      obtain ⟨others, rfl⟩ : ∃ n, others = n + 1 := ⟨others - 1, by omega⟩
      rw [moreParameters_step more, moreParameters_step more]
      apply Rule.bind_same
      intro _ q expected
      have reaches := (Steady.expect _).reaches expected
      have shorter := Parser.horizon_lt_of_advance next reaches
      apply Rule.bind_same
      intro _ r named
      cases named
      rw [bind_apply, bind_apply, ih others (by omega) (by omega)]
    · rw [moreParameters_stop more, moreParameters_stop more]

theorem furtherParameters_stop (stopped : p.peek.kind ≠ .comma) :
    furtherParameters p = (.ok [], p) :=
  moreParameters_stop stopped p.span

theorem furtherParameters_step (rounds : p.horizon ≤ p.span) (more : p.peek.kind = .comma) :
    furtherParameters p =
      (do
        expect .identifier
        let name ← name
        let names ← furtherParameters
        return name :: names : Rule (List Name)) p.advance := by
  have further : furtherParameters p = moreParameters (p.span + 1) p :=
    moreParameters_rounds _ _ rounds (Nat.le_succ_of_le rounds)
  rw [further, moreParameters_step more]
  apply Rule.bind_same
  intro _ q expected
  have span : q.span = p.span :=
    (Parser.Reaches.refl.advance.trans ((Steady.expect _).reaches expected)).span
  apply Rule.bind_same
  intro _ r named
  cases named
  rw [bind_apply, bind_apply, furtherParameters, span]

end listing

end Expression

namespace Statement

def statements (operand : Operand) (closes : Kind → Bool) (p : Parser) : List Stmt × Parser :=
  sequence operand closes p.span p

variable {operand : Operand} {closes : Kind → Bool} {p : Parser}

theorem sequence_closed (closed : closes p.current.kind = true) (rounds : Nat) :
    sequence operand closes rounds p = ([], p) := by
  cases rounds with
  | zero => rfl
  | succ rounds => rw [sequence, if_pos closed]

theorem sequence_built {q : Parser} {statement : Stmt}
    (goes : ¬ closes p.current.kind = true) (built : any operand p = (.ok statement, q))
    (rounds : Nat) :
    sequence operand closes (rounds + 1) p =
      (statement :: (sequence operand closes rounds q.advance).1,
        (sequence operand closes rounds q.advance).2) := by
  rw [sequence, if_neg goes, built]

theorem sequence_dropped {q : Parser} {failure : Failure}
    (goes : ¬ closes p.current.kind = true) (failed : any operand p = (.error failure, q))
    (rounds : Nat) :
    sequence operand closes (rounds + 1) p =
      sequence operand closes rounds q.synchronize.advance := by
  rw [sequence, if_neg goes, failed]

theorem horizon_lt_of_statement {q : Parser} (more : p.current.kind ≠ .eof)
    (reaches : p.Reaches q) : q.advance.horizon < p.horizon := by
  have before := reaches.horizon_le
  have ahead := Parser.horizon_pos_of_current more
  by_cases left : 0 < q.horizon
  · have := Parser.horizon_advance_lt left
    omega
  · have := q.horizon_advance_le
    omega

theorem sequence_rounds (steady : ∀ bound, (operand bound).Steady)
    (ends : closes .eof = true) (rounds others : Nat) (enough : p.horizon ≤ rounds)
    (enoughToo : p.horizon ≤ others) :
    sequence operand closes rounds p = sequence operand closes others p := by
  induction rounds generalizing others p with
  | zero =>
    have closed : closes p.current.kind = true := by
      rw [Parser.ended_of_horizon (Nat.le_zero.1 enough)]
      exact ends
    rw [sequence_closed closed, sequence_closed closed]
  | succ rounds ih =>
    by_cases goes : closes p.current.kind = true
    · rw [sequence_closed goes, sequence_closed goes]
    · have more : p.current.kind ≠ .eof := by
        intro ended
        rw [ended] at goes
        exact goes ends
      have ahead := Parser.horizon_pos_of_current more
      obtain ⟨others, rfl⟩ : ∃ n, others = n + 1 := ⟨others - 1, by omega⟩
      cases run : any operand p with
      | mk result q =>
        have reaches := (steady_any steady).reaches run
        cases result with
        | ok statement =>
          have shorter := horizon_lt_of_statement more reaches
          rw [sequence_built goes run, sequence_built goes run,
            ih others (by omega) (by omega)]
        | error failure =>
          have shorter := horizon_lt_of_statement more (reaches.trans q.reaches_synchronize)
          rw [sequence_dropped goes run, sequence_dropped goes run,
            ih others (by omega) (by omega)]

theorem statements_closed (closed : closes p.current.kind = true) :
    statements operand closes p = ([], p) :=
  sequence_closed closed p.span

theorem statements_built (steady : ∀ bound, (operand bound).Steady)
    (ends : closes .eof = true) (rounds : p.horizon ≤ p.span) {q : Parser} {statement : Stmt}
    (goes : ¬ closes p.current.kind = true) (built : any operand p = (.ok statement, q)) :
    statements operand closes p =
      (statement :: (statements operand closes q.advance).1,
        (statements operand closes q.advance).2) := by
  have further : statements operand closes p = sequence operand closes (p.span + 1) p :=
    sequence_rounds steady ends _ _ rounds (Nat.le_succ_of_le rounds)
  have span : q.advance.span = p.span := ((steady_any steady).reaches built).span
  rw [further, sequence_built goes built, statements, span]

theorem statements_dropped (steady : ∀ bound, (operand bound).Steady)
    (ends : closes .eof = true) (rounds : p.horizon ≤ p.span) {q : Parser} {failure : Failure}
    (goes : ¬ closes p.current.kind = true) (failed : any operand p = (.error failure, q)) :
    statements operand closes p = statements operand closes q.synchronize.advance := by
  have further : statements operand closes p = sequence operand closes (p.span + 1) p :=
    sequence_rounds steady ends _ _ rounds (Nat.le_succ_of_le rounds)
  have reaches := ((steady_any steady).reaches failed).trans q.reaches_synchronize
  have span : q.synchronize.advance.span = p.span := reaches.span
  rw [further, sequence_dropped goes failed, statements, span]

end Statement

namespace Parser

theorem diagnostics_note_parsed (p : Parser) (statements diagnostics : Nat) :
    (p.note (.parsed statements diagnostics)).diagnostics = p.diagnostics := by
  simp [Parser.diagnostics, note, Event.failure?]

theorem parseProgram_of_statements {p q : Parser} {built : List Stmt}
    (same : Statement.statements p.operand Statement.endsProgram p = (built, q)) :
    p.parseProgram = (⟨built⟩, q.note (.parsed built.length q.diagnostics.length)) := by
  unfold Statement.statements at same
  unfold parseProgram Statement.program
  rw [same]

theorem run_of_statements {p q : Parser} {built : List Stmt}
    (same : Statement.statements p.operand Statement.endsProgram p = (built, q)) :
    p.run = ⟨⟨built⟩, q.diagnostics,
      q.log.reverse ++ [.parsed built.length q.diagnostics.length]⟩ := by
  unfold run
  rw [parseProgram_of_statements same]
  dsimp only
  rw [diagnostics_note_parsed]
  simp only [note, List.reverse_cons]

end Parser

end PrattFrontEnd
