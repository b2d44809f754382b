import PrattFrontEnd.Proofs.Grammar.Acceptance
import PrattFrontEnd.Proofs.Grammar.Need
import PrattFrontEnd.Proofs.Parser.Alongside

/-!
The cap on nesting. On a program of the grammar a smaller cap changes nothing unless an expression is
refused for it, and then that is the first thing reported. Main statement: `nesting_cap_is_exact`.
-/
namespace PrattFrontEnd

open Rule Expression Statement PrattFrontEnd.Parser

namespace Parser

variable {p q r : Parser}

/-- The first thing noted on the way is that an expression stands too deep. -/
def Exceeds (p q : Parser) : Prop :=
  ∃ later token, q.log = later ++ .reported ⟨.tooDeep p.maxDepth, token⟩ :: p.log

theorem Exceeds.later (exceeds : p.Exceeds q) (reaches : q.Reaches r) : p.Exceeds r := by
  obtain ⟨later, token, noted⟩ := exceeds
  obtain ⟨events, grown⟩ := reaches.log
  refine ⟨events ++ later, token, ?_⟩
  rw [grown, noted, List.append_assoc]

theorem Exceeds.behind (exceeds : q.Exceeds r) (reaches : p.Reaches q) (silent : q.log = p.log) :
    p.Exceeds r := by
  obtain ⟨later, token, noted⟩ := exceeds
  refine ⟨later, token, ?_⟩
  rw [noted, silent, reaches.maxDepth]

theorem Reaches.silent (first : p.Reaches q) (second : q.Reaches r) (silent : r.log = p.log) :
    q.log = p.log := by
  obtain ⟨before, grown⟩ := first.log
  obtain ⟨after, grownToo⟩ := second.log
  have lengths := congrArg List.length silent
  rw [grownToo, grown, List.length_append, List.length_append] at lengths
  have none : before = [] := List.eq_nil_of_length_eq_zero (by omega)
  rw [grown, none, List.nil_append]

end Parser

/-- Two rules, the second of which allows more nesting: where the second one is silent, the first one
does the same, or the first thing it notes is that an expression stands too deep. -/
structure Rule.Capped (rule other : Rule α) : Prop where
  steady : rule.Steady
  steadyToo : other.Steady
  same : ∀ p : Parser, (other p).2.log = p.log → rule p = other p ∨ p.Exceeds (rule p).2

theorem Rule.Capped.bind {first other : Rule α} {next nextToo : α → Rule β}
    (before : first.Capped other) (after : ∀ a, (next a).Capped (nextToo a)) :
    (first >>= next).Capped (other >>= nextToo) := by
  refine ⟨before.steady.bind fun a => (after a).steady,
    before.steadyToo.bind fun a => (after a).steadyToo, ?_⟩
  intro p silent
  have silentFirst : (other p).2.log = p.log :=
    (before.steadyToo p).moves.silent (Steady.reaches_behind (fun a => (after a).steadyToo) p) silent
  rcases before.same p silentFirst with same | exceeds
  · cases run : other p with
    | mk result q =>
      cases result with
      | error failure =>
        left
        rw [bind_of_error (same.trans run), bind_of_error run]
      | ok a =>
        have quiet : q.log = p.log := by
          rw [run] at silentFirst
          exact silentFirst
        rw [bind_of_ok run, ← quiet] at silent
        rw [bind_of_ok (same.trans run), bind_of_ok run]
        rcases (after a).same q silent with further | exceeds
        · exact .inl further
        · exact .inr (exceeds.behind (before.steadyToo.reaches run) quiet)
  · exact .inr (exceeds.later (Steady.reaches_behind (fun a => (after a).steady) p))

theorem Rule.Capped.attempt {rule other : Rule α} (capped : rule.Capped other) :
    rule.attempt.Capped other.attempt := by
  have onwards : ∀ (rule : Rule α) (p : Parser), (rule p).2.Reaches (rule.attempt p).2 := by
    intro rule p
    unfold Rule.attempt
    cases rule p with
    | mk result q =>
      cases result with
      | ok a => exact .refl
      | error failure => exact q.reaches_synchronize
  refine ⟨capped.steady.attempt, capped.steadyToo.attempt, ?_⟩
  intro p silent
  have silentInside := (capped.steadyToo p).moves.silent (onwards other p) silent
  rcases capped.same p silentInside with same | exceeds
  · left
    unfold Rule.attempt
    rw [same]
  · exact .inr (exceeds.later (onwards rule p))

theorem Rule.Steady.capped {rule : Rule α} (steady : rule.Steady) : rule.Capped rule :=
  ⟨steady, steady, fun _ _ => .inl rfl⟩

def Rule.Relation.capped : Relation where
  holds := Capped
  pure a := (Relation.steady.pure a).capped
  bind before after := before.bind after
  look found := by
    refine ⟨?_, ?_, ?_⟩
    · intro p
      obtain ⟨same, _, does, capped⟩ := found p
      rw [(does p (.refl p)).1]
      exact capped.steady p
    · intro p
      obtain ⟨_, sameToo, does, capped⟩ := found p
      rw [(does p (.refl p)).2]
      exact capped.steadyToo p
    · intro p
      obtain ⟨same, sameToo, does, capped⟩ := found p
      rw [(does p (.refl p)).1, (does p (.refl p)).2]
      exact capped.same p
  advance := Steady.capped Relation.steady.advance
  fail diagnostic token := Steady.capped (Relation.steady.fail diagnostic token)
  attempt capped := capped.attempt

theorem Expression.capped_within (levels more : Nat) (bound : Precedence) :
    Capped (within levels bound) (within (levels + more) bound) := by
  induction levels generalizing bound with
  | zero =>
    refine ⟨steady_within 0 bound, steady_within (0 + more) bound, ?_⟩
    intro p _
    exact .inr ⟨[], p.current, rfl⟩
  | succ levels ih =>
    refine ⟨steady_within _ bound, steady_within _ bound, ?_⟩
    intro p silent
    rw [Nat.succ_add] at silent ⊢
    have inner := (Relation.capped.start ih bound).same { p with depth := p.depth + 1 } silent
    rcases inner with same | exceeds
    · left
      rw [within_eq, within_eq, same]
    · exact .inr exceeds

theorem exceeds_of_need {program : Program} {tokens : List Token} {p : Parser}
    (d : Derivation (.stmts program.statements) tokens []) (ready : p.Ready) (on : p.On tokens)
    (fresh : p.log = []) (deep : p.levels < d.need) :
    p.Exceeds (statements p.operand endsProgram p).2 := by
  obtain ⟨more, enough⟩ : ∃ more, d.need = p.levels + more := ⟨d.need - p.levels, by omega⟩
  obtain ⟨q, quiet, _, listed⟩ := d.parses (p.levels + more) endsProgram p (by omega) rfl
    (fun k ends => Or.inl (of_decide_eq_true ends)) (fun t front => by cases front) ready on
  have capped := Relation.capped.sequence (capped_within p.levels more) endsProgram p.span
  have silent : (statements (within (p.levels + more)) endsProgram p).2.log = p.log := by
    rw [listed]
    exact quiet.log
  rcases capped.same p silent with same | exceeds
  · have reached : (statements p.operand endsProgram p).2 = q := by
      have last := congrArg Prod.snd same
      exact last.trans (congrArg Prod.snd listed)
    have clean : p.run.diagnostics = [] := by
      have whole : statements p.operand endsProgram p =
          ((statements p.operand endsProgram p).1, q) := Prod.ext rfl reached
      rw [run_of_statements whole]
      simp [Parser.diagnostics, quiet.log, fresh]
    have allowed := need_le_of_clean d ready on clean
    omega
  · exact exceeds

theorem on_ofList_closed {tokens : List Token} (maxDepth : Int) (closing : Option Place)
    (noEnd : ∀ t ∈ tokens, t.kind ≠ .eof) :
    (ofList (tokens ++ (closing.map Token.endAt).toList) maxDepth).On tokens := by
  cases closing with
  | none =>
    rw [Option.map_none, Option.toList_none, List.append_nil]
    exact on_ofList maxDepth noEnd
  | some place => exact on_onSource maxDepth (Source.ofList_delivers_ended place noEnd)

theorem Derivation.need_eq_zero_iff {ss : List Stmt} {tokens : List Token}
    (d : Derivation (.stmts ss) tokens []) : d.need = 0 ↔ ss = [] := by
  cases d with
  | noStmts => exact ⟨fun _ => rfl, fun _ => rfl⟩
  | stmts first further =>
    have positive : 0 < first.need := by
      cases first with
      | binding _ _ _ _ _ _ value _ => exact value.need_pos
      | result _ _ value _ => exact value.need_pos
      | expression value _ => exact value.need_pos
    constructor
    · intro zero
      have needs : max first.need further.need = 0 := zero
      omega
    · exact fun none => nomatch none

/-- A program of the grammar is parsed without a diagnostic exactly when its nesting is allowed or
there is nothing in it. Otherwise the first diagnostic is that the nesting is too deep. -/
theorem nesting_cap_is_exact {program : Program} {tokens : List Token}
    (d : Derivation (.stmts program.statements) tokens []) (maxDepth : Int)
    (closing : Option Place) :
    let p := ofList (tokens ++ (closing.map Token.endAt).toList) maxDepth
    (p.run.diagnostics = [] ↔ d.need ≤ maxDepth ∨ program.statements = []) ∧
      (p.run.diagnostics ≠ [] → p.run.messages.head? =
        some ("maximum nesting depth of " ++ toString maxDepth ++ " exceeded")) := by
  intro p
  have on : p.On tokens := on_ofList_closed maxDepth closing d.noEnd
  have ready : p.Ready := ready_onSource _ maxDepth
  have levels : p.levels = maxDepth.toNat := levels_onSource _ maxDepth
  have allowed : d.need ≤ p.levels ↔ d.need ≤ maxDepth ∨ program.statements = [] := by
    rw [← d.need_eq_zero_iff, levels]
    omega
  have clean : p.run.diagnostics = [] ↔ d.need ≤ p.levels :=
    ⟨need_le_of_clean d ready on, fun enough => (run_of_derivation d enough ready on rfl).2⟩
  refine ⟨clean.trans allowed, ?_⟩
  intro reported
  have deep : p.levels < d.need := Nat.lt_of_not_le (reported ∘ clean.2)
  obtain ⟨later, token, noted⟩ := exceeds_of_need d ready on rfl deep
  have fresh : p.log = [] := rfl
  have first : p.run.diagnostics.head? = some (.tooDeep maxDepth) := by
    rw [diagnostics_of_run, Parser.diagnostics, noted, fresh, List.reverse_append]
    rfl
  rw [Parsed.messages, List.head?_map, first]
  rfl

/-- The negation of a name needs two levels. With one the name is refused. -/
theorem negation_needs_two_levels :
    (ofList [⟨.bang, "!", ⟨1, 1⟩⟩, ⟨.identifier, "a", ⟨1, 2⟩⟩] 2).run.diagnostics = [] ∧
      (ofList [⟨.bang, "!", ⟨1, 1⟩⟩, ⟨.identifier, "a", ⟨1, 2⟩⟩] 1).run.messages.head? =
        some "maximum nesting depth of 1 exceeded" := by
  let bang : Token := ⟨.bang, "!", ⟨1, 1⟩⟩
  let name : Token := ⟨.identifier, "a", ⟨1, 2⟩⟩
  let program : Program := ⟨[.expression bang (.unary bang "!" (.name ⟨name, "a"⟩))]⟩
  -- Down to the stratum of prefix operators, and from the operand to the name.
  let d : Derivation (.stmts program.statements) [bang, name] [] :=
    .stmts (.expression (.tighter rfl (.tighter rfl (.tighter rfl (.tighter rfl
      (.unary bang (.inl rfl) (.tighter rfl (.tighter rfl (.name name rfl)))))))) (.inr ⟨rfl, by simp⟩))
      .noStmts
  have two : d.need = 2 := rfl
  have allowed := (nesting_cap_is_exact d 2 none).1.2 (.inl (by rw [two]; decide))
  have refused : (ofList [bang, name] 1).run.diagnostics ≠ [] := by
    intro clean
    rcases (nesting_cap_is_exact d 1 none).1.1 clean with enough | empty
    · rw [two] at enough
      revert enough
      decide
    · cases empty
  exact ⟨allowed, (nesting_cap_is_exact d 1 none).2 refused⟩

/-- Nothing is nested in an empty program, and so no cap is exceeded, however low. -/
theorem empty_program_meets_negative_cap :
    ¬ ((ofList [] (-1)).run.diagnostics = [] ↔
      ((.noStmts : Derivation (.stmts []) [] []).need : Int) ≤ -1) := by
  decide

end PrattFrontEnd
