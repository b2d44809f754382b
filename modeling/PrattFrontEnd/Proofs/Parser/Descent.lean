import PrattFrontEnd.Proofs.Parser.Alongside
import PrattFrontEnd.Proofs.Recovery.Drops

/-!
Parsing ends because it uses up tokens. Between an expression and any expression inside of it at
least one token is consumed, so the recursion is never deeper than there are tokens, whatever the cap
on nesting; and a loop consumes a token in each round. Main statement: `parsing_ends_with_the_tokens`.
-/
namespace PrattFrontEnd

open Rule PrattFrontEnd.Parser Expression Statement

/-- The rule for expressions as it calls itself: the cap is compared with the depth on the way in, and
the calls inside one another are followed so many times. What would be called behind that is
arbitrary. -/
def Expression.unrolled (beyond : Operand) : Nat → Operand
  | 0 => beyond
  | calls + 1 => fun bound p =>
    if p.maxDepth ≤ p.depth then fail (.tooDeep p.maxDepth) p.current p
    else
      let (result, q) := start (unrolled beyond calls) bound { p with depth := p.depth + 1 }
      (result, { q with depth := q.depth - 1 })

/-- Two rules do the same wherever fewer tokens are left than a bound says and so many expressions
may be opened. -/
structure Rule.Agree (horizon levels : Nat) (rule other : Rule α) : Prop where
  steady : rule.Steady
  same : ∀ p : Parser, p.Ready → p.levels = levels → p.horizon < horizon → rule p = other p

theorem Rule.Agree.behind {horizon levels : Nat} {first : Rule α} {next nextToo : α → Rule β}
    {p : Parser} (steady : first.Steady) (ready : p.Ready) (level : p.levels = levels)
    (after : ∀ a, Agree horizon levels (next a) (nextToo a))
    (shorter : ∀ a q, first p = (.ok a, q) → q.horizon < horizon) :
    (first >>= next) p = (first >>= nextToo) p := by
  apply Rule.bind_same
  intro a q built
  have reaches := steady.reaches built
  exact (after a).same q (ready.of_reaches reaches) (reaches.levels.trans level) (shorter a q built)

def Rule.Relation.agree (horizon levels : Nat) : Relation where
  holds := Agree horizon levels
  pure a := ⟨Relation.steady.pure a, fun _ _ _ _ => rfl⟩
  bind before after := by
    refine ⟨before.steady.bind fun a => (after a).steady, ?_⟩
    intro p ready level left
    have ahead := Agree.behind before.steady ready level after fun a q built =>
      Nat.lt_of_le_of_lt (before.steady.reaches built).horizon_le left
    rw [ahead, bind_apply, bind_apply, before.same p ready level left]
  look found := by
    constructor
    · intro p
      obtain ⟨same, _, does, agree⟩ := found p
      rw [(does p (.refl p)).1]
      exact agree.steady p
    · intro p ready level left
      obtain ⟨same, sameToo, does, agree⟩ := found p
      rw [(does p (.refl p)).1, (does p (.refl p)).2]
      exact agree.same p ready level left
  advance := ⟨Relation.steady.advance, fun _ _ _ _ => rfl⟩
  fail diagnostic token := ⟨Relation.steady.fail diagnostic token, fun _ _ _ _ => rfl⟩
  attempt agree := by
    refine ⟨agree.steady.attempt, ?_⟩
    intro p ready level left
    unfold Rule.attempt
    rw [agree.same p ready level left]

namespace Expression

section

variable {operand other : Operand} {horizon levels : Nat} {p : Parser}
variable (operands : ∀ bound, Agree horizon levels (operand bound) (other bound))
variable (ready : p.Ready) (level : p.levels = levels) (left : p.horizon ≤ horizon)

include ready level left

theorem agree_behind_advance {next nextToo : Unit → Rule α} (more : p.current.kind ≠ .eof)
    (after : ∀ a, Agree horizon levels (next a) (nextToo a)) :
    (Rule.advance >>= next) p = (Rule.advance >>= nextToo) p := by
  apply Agree.behind Relation.steady.advance ready level after
  intro a q moved
  cases moved
  exact Nat.lt_of_lt_of_le (horizon_advance_lt (horizon_pos_of_current more)) left

theorem agree_behind_expect {wanted : Kind} {next nextToo : Unit → Rule α}
    (more : p.current.kind ≠ .eof) (after : ∀ a, Agree horizon levels (next a) (nextToo a)) :
    (expect wanted >>= next) p = (expect wanted >>= nextToo) p := by
  by_cases found : p.peek.kind = wanted
  · have moves : expect wanted p = Rule.advance p := if_pos found
    rw [bind_apply, bind_apply, moves]
    exact agree_behind_advance ready level left more after
  · have fails : expect wanted p = fail (.unexpected wanted p.peek.kind) p.peek p := if_neg found
    rw [bind_apply, bind_apply, fails]
    rfl

include operands

theorem items_agree (more : p.current.kind ≠ .eof) (closing : Kind) :
    items operand closing p = items other closing p := by
  let related := Relation.agree horizon levels
  apply Rule.bind_same
  intro closed q accepted
  cases closed with
  | true => rfl
  | false =>
    have stays : q = p := by
      by_cases found : p.peek.kind = closing
      · rw [accept_yes found] at accepted
        cases accepted
      · rw [accept_no found] at accepted
        cases accepted
        rfl
    rw [stays]
    exact agree_behind_advance ready level left more fun _ => related.bind (operands _) fun _ =>
      related.bind (related.spannedItems operands) fun _ => related.bind (related.expect _) fun _ =>
        related.pure _

theorem opening_agrees (more : p.current.kind ≠ .eof) (rule : Opening) :
    opening operand rule p = opening other rule p := by
  let related := Relation.agree horizon levels
  cases rule with
  | name => rfl
  | integer => rfl
  | string => rfl
  | boolean => rfl
  | unary =>
    show (Rule.advance >>= fun _ => operand .unary >>= fun right =>
        Pure.pure (Expr.unary p.current p.current.text right)) p =
      (Rule.advance >>= fun _ => other .unary >>= fun right =>
        Pure.pure (Expr.unary p.current p.current.text right)) p
    exact agree_behind_advance ready level left more fun _ =>
      related.bind (operands _) fun _ => related.pure _
  | group =>
    exact agree_behind_advance ready level left more fun _ => related.bind (operands _) fun _ =>
      related.bind (related.expect _) fun _ => related.pure _
  | conditional =>
    exact agree_behind_expect ready level left more fun _ => related.bind related.advance fun _ =>
      related.bind (operands _) fun _ => related.bind (related.expect _) fun _ =>
        related.bind (related.expect _) fun _ => related.bind (related.block operands) fun _ =>
          related.bind (related.accept _) fun _ =>
            related.ite (related.bind (related.expect _) fun _ =>
              related.bind (related.block operands) fun _ => related.pure _) (related.pure _)
  | function =>
    exact agree_behind_expect ready level left more fun _ => related.bind related.parameters fun _ =>
      related.bind (related.expect _) fun _ => related.bind (related.block operands) fun _ =>
        related.pure _
  | array =>
    have same := items_agree operands ready level left more .rightBracket
    show (items operand .rightBracket >>= fun es => Pure.pure (Expr.array p.current es)) p =
      (items other .rightBracket >>= fun es => Pure.pure (Expr.array p.current es)) p
    rw [bind_apply, bind_apply, same]

theorem climb_agrees (bound : Precedence) (rounds : Nat) (built : Expr) :
    climb operand bound rounds built p = climb other bound rounds built p := by
  let related := Relation.agree horizon levels
  cases rounds with
  | zero => rfl
  | succ rounds =>
    by_cases more : continues bound p = true
    · cases ruled : p.table.continuation p.peek.kind with
      | none => rw [climb_unruled ruled, climb_unruled ruled]
      | some step =>
        have silent : p.table.precedenceOf .eof = .lowest := by
          rw [ready.table]
          rfl
        have next := peek_ne_eof_of_continues silent more
        have shorter := horizon_advance_lt (horizon_pos_of_peek next)
        rw [climb_step more ruled, climb_step more ruled]
        have behind := related.bind (related.continuation operands built step) fun longer =>
          related.climb operands bound rounds longer
        exact behind.same p.advance (ready.of_reaches Parser.Reaches.refl.advance) level
          (Nat.lt_of_lt_of_le shorter left)
    · rw [climb_stop more, climb_stop more]

theorem start_agrees (bound : Precedence) : start operand bound p = start other bound p := by
  unfold start
  cases opens : p.table.opening p.current.kind with
  | none => rfl
  | some rule =>
    have more : p.current.kind ≠ .eof := by
      intro ended
      rw [ready.table, ended] at opens
      cases opens
    have same := opening_agrees operands ready level left more rule
    show (opening operand rule >>= climb operand bound p.span) p =
      (opening other rule >>= climb other bound p.span) p
    rw [bind_apply, bind_apply, ← same]
    cases run : opening operand rule p with
    | mk result q =>
      cases result with
      | error failure => rfl
      | ok built =>
        have reaches := (steady_opening (fun bound => (operands bound).steady) rule).reaches run
        exact climb_agrees operands (ready.of_reaches reaches) (reaches.levels.trans level)
          (Nat.le_trans reaches.horizon_le left) bound p.span built

end

theorem unrolled_agrees (beyond : Operand) (calls levels : Nat) (bound : Precedence) :
    Agree calls levels (within levels bound) (unrolled beyond calls bound) := by
  refine ⟨steady_within levels bound, ?_⟩
  induction calls generalizing levels bound with
  | zero => exact fun p _ _ none => absurd none (Nat.not_lt_zero _)
  | succ calls ih =>
    intro p ready level left
    cases levels with
    | zero =>
      have reached : p.maxDepth ≤ p.depth := by
        unfold Parser.levels at level
        omega
      unfold unrolled
      rw [if_pos reached]
      rfl
    | succ levels =>
      have allowed : ¬ p.maxDepth ≤ p.depth := by
        unfold Parser.levels at level
        omega
      have deeper : Parser.levels { p with depth := p.depth + 1 } = levels := by
        unfold Parser.levels at level ⊢
        show (p.maxDepth - (p.depth + 1 : Nat)).toNat = levels
        omega
      have same := start_agrees (fun bound => ⟨steady_within levels bound, ih levels bound⟩)
        (ready.at_depth (p.depth + 1)) deeper (Nat.le_of_lt_succ left) bound
      unfold unrolled
      rw [if_neg allowed]
      unfold within
      rw [same]

end Expression

namespace Parser

theorem horizon_ofList_le (tokens : List Token) (maxDepth : Int) :
    (ofList tokens maxDepth).horizon ≤ tokens.length := by
  match tokens with
  | [] => exact Nat.le_refl 0
  | [t] =>
    have exhausted : (ofList [t] maxDepth).source.remaining = 0 := rfl
    have ended : (ofList [t] maxDepth).peek.kind = .eof := rfl
    rw [horizon_of_exhausted exhausted, if_neg (not_not_intro ended), List.length_singleton]
    split <;> omega
  | t :: u :: rest => exact (ofList (t :: u :: rest) maxDepth).horizon_le

variable {p : Parser}

theorem parseProgram_ends (ready : p.Ready) : p.parseProgram.2.current.kind = .eof := by
  obtain ⟨_, _, q, rounds, same⟩ := rounds_of_statements (steady_within p.levels)
    (accounts_within p.levels) endsProgram rfl ready.rounds
  have last : (statements p.operand endsProgram p).2 = q := congrArg Prod.snd same
  have ended := rounds.ends
  rw [← last] at ended
  exact of_decide_eq_true ended

theorem program_unrolled (ready : p.Ready) (beyond : Operand) {calls : Nat}
    (enough : p.horizon < calls) : program (unrolled beyond calls) p = p.parseProgram := by
  let related := Relation.agree calls p.levels
  have agree := related.sequence (unrolled_agrees beyond calls p.levels) endsProgram p.span
  have same := agree.same p ready rfl enough
  have built := congrArg Prod.fst same
  have reached := congrArg Prod.snd same
  have whole : sequence p.operand endsProgram p.span p =
      sequence (unrolled beyond calls) endsProgram p.span p :=
    Prod.ext (Except.ok.inj built) reached
  unfold parseProgram program
  rw [whole]

theorem run_at_span (ready : p.Ready) {rounds : Nat} (enough : p.horizon ≤ rounds) :
    (Parser.run { p with span := rounds }).program = p.run.program ∧
      (Parser.run { p with span := rounds }).diagnostics = p.run.diagnostics := by
  have kin : Kin [] { p with span := rounds } p :=
    ⟨⟨ready.table, enough⟩, ready, rfl, rfl, rfl⟩
  have alike : Likeness.equal.Throughout (Parser.upcoming { p with span := rounds }) p.upcoming :=
    fun _ => rfl
  obtain ⟨statements, diagnostics⟩ := run_alike kin alike
  exact ⟨congrArg Program.mk (Likeness.stmts_eq statements), diagnostics⟩

end Parser

/-- Whatever the cap, the parser of a list comes to an end token, and the tokens alone see to that: no
call for an expression is nested deeper than there are tokens, as what such a call would do makes no
difference, and no loop needs more rounds than there are tokens. -/
theorem parsing_ends_with_the_tokens (tokens : List Token) (maxDepth : Int) :
    let p := Parser.ofList tokens maxDepth
    p.parseProgram.2.current.kind = .eof ∧
      ∀ beyond calls rounds, tokens.length < calls → tokens.length ≤ rounds →
        let outcome := program (unrolled beyond calls) { p with span := rounds }
        outcome.1 = p.run.program ∧ outcome.2.diagnostics = p.run.diagnostics ∧
          outcome.2.current.kind = .eof := by
  intro p
  have ready : p.Ready := ready_onSource _ maxDepth
  have short : p.horizon ≤ tokens.length := horizon_ofList_le tokens maxDepth
  refine ⟨parseProgram_ends ready, ?_⟩
  intro beyond calls rounds deep long outcome
  have enough : p.horizon ≤ rounds := Nat.le_trans short long
  have readyToo : Ready { p with span := rounds } := ⟨ready.table, enough⟩
  have same : outcome = Parser.parseProgram { p with span := rounds } :=
    program_unrolled readyToo beyond (Nat.lt_of_le_of_lt short deep)
  obtain ⟨built, reported⟩ := run_at_span ready enough
  rw [same]
  exact ⟨built, reported, parseProgram_ends readyToo⟩

end PrattFrontEnd
