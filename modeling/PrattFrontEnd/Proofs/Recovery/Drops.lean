import PrattFrontEnd.Proofs.Parser.Rounds

/-!
What becomes of statements that fail. A rule that fails has reported its failure last, and the loop
over statements that called it drops the statement and goes on; whatever else was reported is about
statements that were dropped inside of it. The log of a run is therefore a row of pairs, a report and
the recovery from it. Main statement: `one_diagnostic_for_each_dropped_statement`.
-/
namespace PrattFrontEnd

open Rule PrattFrontEnd.Parser Expression Statement

/-- A statement that was dropped: why, and the token from which its rest was skipped. -/
structure Drop where
  failure : Failure
  skippedFrom : Token

def Drop.events (drop : Drop) : List Event := [.reported drop.failure, .skipping drop.skippedFrom]

def Event.skips : Event → Bool
  | .skipping _ => true
  | .reported _ | .parsed _ _ => false

namespace Parser

/-- On the way from one parser to another these statements were dropped, in this order, and nothing
else was noted. -/
def Dropped (p : Parser) (drops : List Drop) (q : Parser) : Prop :=
  q.log = (drops.flatMap Drop.events).reverse ++ p.log

def Failed (p : Parser) (drops : List Drop) (failure : Failure) (q : Parser) : Prop :=
  q.log = .reported failure :: ((drops.flatMap Drop.events).reverse ++ p.log)

variable {p q r : Parser} {drops more : List Drop} {failure : Failure}

theorem Dropped.refl (p : Parser) : p.Dropped [] p := rfl

theorem Failed.here (p : Parser) (failure : Failure) : p.Failed [] failure (p.report failure) := rfl

theorem Dropped.trans (first : p.Dropped drops q) (second : q.Dropped more r) :
    p.Dropped (drops ++ more) r := by
  rw [Dropped] at first second ⊢
  rw [second, first, List.flatMap_append, List.reverse_append, List.append_assoc]

theorem Dropped.failed (first : p.Dropped drops q) (second : q.Failed more failure r) :
    p.Failed (drops ++ more) failure r := by
  rw [Dropped] at first
  rw [Failed] at second ⊢
  rw [second, first, List.flatMap_append, List.reverse_append, List.append_assoc]

theorem Failed.dropped (failed : p.Failed drops failure q) :
    p.Dropped (drops ++ [⟨failure, q.current⟩]) q.synchronize := by
  rw [Failed] at failed
  rw [Dropped, synchronize_log, failed, List.flatMap_append, List.reverse_append]
  rfl

theorem diagnostics_of_events (drops : List Drop) :
    (drops.flatMap Drop.events).filterMap (fun event => event.failure?.map Failure.diagnostic) =
      drops.map fun drop => drop.failure.diagnostic := by
  induction drops with
  | nil => rfl
  | cons drop drops ih =>
    rw [List.flatMap_cons, List.filterMap_append, ih]
    rfl

theorem skips_of_events (drops : List Drop) :
    (drops.flatMap Drop.events).countP Event.skips = drops.length := by
  induction drops with
  | nil => rfl
  | cons drop drops ih =>
    rw [List.flatMap_cons, List.countP_append, ih, List.length_cons]
    show 1 + drops.length = drops.length + 1
    omega

theorem Failed.diagnostics (failed : p.Failed drops failure q) :
    q.diagnostics = p.diagnostics ++ (drops.map fun drop => drop.failure.diagnostic) ++
      [failure.diagnostic] := by
  rw [Failed] at failed
  rw [Parser.diagnostics, failed, List.reverse_cons, List.reverse_append, List.reverse_reverse,
    List.filterMap_append, List.filterMap_append, diagnostics_of_events]
  rfl

end Parser

/-- What a rule leaves in the log: the statements that were dropped inside of it, and its own failure
behind them if it fails. -/
inductive Parser.Accounts (p : Parser) : Except Failure α × Parser → Prop where
  | built {a : α} {q : Parser} {drops : List Drop} (dropped : p.Dropped drops q) :
      p.Accounts (.ok a, q)
  | failed {failure : Failure} {q : Parser} {drops : List Drop}
      (failed : p.Failed drops failure q) : p.Accounts (.error failure, q)

def Rule.Accounts (rule : Rule α) : Prop := ∀ p : Parser, p.Accounts (rule p)

theorem Rule.Accounts.bind {first : Rule α} {next : α → Rule β} (before : first.Accounts)
    (after : ∀ a, (next a).Accounts) : (first >>= next).Accounts := by
  intro p
  have accounts := before p
  rw [bind_apply]
  cases run : first p with
  | mk result q =>
    rw [run] at accounts
    cases accounts with
    | failed failed => exact .failed failed
    | built dropped =>
      rename_i a drops
      have behind := after a q
      show p.Accounts (next a q)
      cases runToo : next a q with
      | mk resultToo r =>
        rw [runToo] at behind
        cases behind with
        | built droppedToo => exact .built (dropped.trans droppedToo)
        | failed failed => exact .failed (dropped.failed failed)

theorem Rule.Accounts.attempt {rule : Rule α} (rules : rule.Accounts) : rule.attempt.Accounts := by
  intro p
  have accounts := rules p
  unfold Rule.attempt
  cases run : rule p with
  | mk result q =>
    rw [run] at accounts
    cases accounts with
    | built dropped => exact .built dropped
    | failed failed => exact .built failed.dropped

def Rule.Relation.accounts : Relation where
  holds rule _ := rule.Accounts
  pure _ p := .built (.refl p)
  bind before after := before.bind after
  look found p := by
    obtain ⟨same, _, does, accounts⟩ := found p
    rw [(does p (.refl p)).1]
    exact accounts p
  advance p := .built (Dropped.refl p)
  fail _ _ p := .failed (Failed.here p _)
  attempt accounts := accounts.attempt

theorem Rule.Relation.accounts_operand {operand : Operand}
    (accounts : ∀ bound, (operand bound).Accounts) (bound : Precedence) :
    Relation.accounts.holds (operand bound) (operand bound) := accounts bound

theorem Expression.accounts_within (levels : Nat) (bound : Precedence) :
    (within levels bound).Accounts := by
  induction levels generalizing bound with
  | zero => exact fun p => .failed (Failed.here p _)
  | succ levels ih =>
    intro p
    have inner := Relation.accounts.start (Relation.accounts_operand ih) bound
      { p with depth := p.depth + 1 }
    unfold within
    -- Coming in and going out changes the depth alone, and the log is the same on both sides.
    cases run : start (within levels) bound { p with depth := p.depth + 1 } with
    | mk result q =>
      rw [run] at inner
      cases inner with
      | built dropped => exact .built dropped
      | failed failed => exact .failed failed

namespace Statement

/-- A loop over statements up to its closing token: what became of the statements it parsed, in
order, and all that was dropped on the way, inside of those statements or by the loop itself. A
failure is the last report when its statement is given up. -/
inductive Rounds (operand : Operand) (closes : Kind → Bool) :
    Parser → List (Except Failure Stmt) → List Drop → Parser → Prop where
  | closed {p : Parser} (ends : closes p.current.kind = true) : Rounds operand closes p [] [] p
  | built {p q r : Parser} {statement : Stmt} {outcomes : List (Except Failure Stmt)}
      {inside behind : List Drop} (goes : ¬ closes p.current.kind = true)
      (built : any operand p = (.ok statement, q)) (dropped : p.Dropped inside q)
      (further : Rounds operand closes q.advance outcomes behind r) :
      Rounds operand closes p (.ok statement :: outcomes) (inside ++ behind) r
  | dropped {p q r : Parser} {failure : Failure} {outcomes : List (Except Failure Stmt)}
      {inside behind : List Drop} (goes : ¬ closes p.current.kind = true)
      (failed : any operand p = (.error failure, q)) (reported : p.Failed inside failure q)
      (further : Rounds operand closes q.synchronize.advance outcomes behind r) :
      Rounds operand closes p (.error failure :: outcomes)
        (inside ++ ⟨failure, q.current⟩ :: behind) r

def kept (outcomes : List (Except Failure Stmt)) : List Stmt := outcomes.filterMap Except.toOption

variable {operand : Operand} {closes : Kind → Bool} {p q : Parser}
variable {outcomes : List (Except Failure Stmt)} {drops : List Drop}

theorem Rounds.dropped_all (rounds : Rounds operand closes p outcomes drops q) :
    p.Dropped drops q := by
  induction rounds with
  | closed _ => exact .refl _
  | built _ _ dropped _ ih => exact dropped.trans ih
  | dropped _ _ reported _ ih =>
    have both := reported.dropped.trans ih
    rw [List.append_assoc] at both
    exact both

theorem Rounds.ends (rounds : Rounds operand closes p outcomes drops q) :
    closes q.current.kind = true := by
  induction rounds with
  | closed ends => exact ends
  | built _ _ _ _ ih => exact ih
  | dropped _ _ _ _ ih => exact ih

theorem rounds_of_statements (steady : ∀ bound, (operand bound).Steady)
    (accounts : ∀ bound, (operand bound).Accounts) (closes : Kind → Bool)
    (ends : closes .eof = true) (ready : p.horizon ≤ p.span) :
    ∃ outcomes drops q, Rounds operand closes p outcomes drops q ∧
      statements operand closes p = (kept outcomes, q) := by
  induction left : p.horizon using Nat.strongRecOn generalizing p with
  | ind _ ih =>
    subst left
    by_cases goes : closes p.current.kind = true
    · exact ⟨[], [], p, .closed goes, statements_closed goes⟩
    · have more : p.current.kind ≠ .eof := by
        intro ended
        rw [ended] at goes
        exact goes ends
      have account := Relation.accounts.any (Relation.accounts_operand accounts) p
      cases run : any operand p with
      | mk result q =>
        have reaches := (steady_any steady).reaches run
        rw [run] at account
        cases account with
        | built dropped =>
          have shorter := horizon_lt_of_statement more reaches
          have span : q.advance.span = p.span := reaches.advance.span
          obtain ⟨outcomes, drops, r, rounds, same⟩ :=
            ih q.advance.horizon shorter (by omega) rfl
          refine ⟨_, _, r, .built goes run dropped rounds, ?_⟩
          rw [statements_built steady ends ready goes run, same]
          rfl
        | failed failed =>
          have recovered := reaches.trans q.reaches_synchronize
          have shorter := horizon_lt_of_statement more recovered
          have span : q.synchronize.advance.span = p.span := recovered.advance.span
          obtain ⟨outcomes, drops, r, rounds, same⟩ :=
            ih q.synchronize.advance.horizon shorter (by omega) rfl
          refine ⟨_, _, r, .dropped goes run failed rounds, ?_⟩
          rw [statements_dropped steady ends ready goes run, same]
          rfl

theorem rounds_of_block (steady : ∀ bound, (operand bound).Steady)
    (accounts : ∀ bound, (operand bound).Accounts) (ready : p.Ready) :
    ∃ outcomes drops q, Rounds operand endsBlock p.advance outcomes drops q ∧
      block operand p = (.mk p.current (kept outcomes), q) := by
  have inside := ready.of_reaches (Reaches.refl.advance)
  obtain ⟨outcomes, drops, q, rounds, same⟩ :=
    rounds_of_statements steady accounts endsBlock rfl inside.rounds
  refine ⟨outcomes, drops, q, rounds, ?_⟩
  show (Block.mk p.current (statements operand endsBlock p.advance).1,
    (statements operand endsBlock p.advance).2) = _
  rw [same]

theorem last_diagnostic_of_any (accounts : ∀ bound, (operand bound).Accounts) {failure : Failure}
    (failed : any operand p = (.error failure, q)) :
    q.diagnostics.getLast? = some failure.diagnostic := by
  have account := Relation.accounts.any (Relation.accounts_operand accounts) p
  rw [failed] at account
  cases account with
  | failed reported => rw [reported.diagnostics, List.getLast?_concat]

end Statement

/-- In a run every diagnostic is the failure of a statement that was dropped, at the top level or in
a block, and every such failure is a diagnostic. The log is a row of pairs, the report and the skip
of each, and the line that closes the run; each loop over statements, wherever it starts, keeps in
order what it parsed; and when a statement fails, its failure is the last diagnostic. -/
theorem one_diagnostic_for_each_dropped_statement (tokens : List Token) (maxDepth : Int) :
    let p := Parser.ofList tokens maxDepth
    (∃ outcomes drops q, Rounds p.operand endsProgram p outcomes drops q ∧
      p.run.program.statements = kept outcomes ∧
      p.run.log = drops.flatMap Drop.events ++
        [.parsed p.run.program.statements.length p.run.diagnostics.length] ∧
      p.run.diagnostics = drops.map fun drop => drop.failure.diagnostic) ∧
    p.run.diagnostics.length = p.run.log.countP Event.skips ∧
    (p.run.diagnostics = [] ↔ ∀ event ∈ p.run.log, event.skips = false) ∧
    ∀ levels q, p.Comes q →
      (∀ failure r, any (within levels) q = (.error failure, r) →
        r.diagnostics.getLast? = some failure.diagnostic) ∧
      ∃ outcomes drops r, Rounds (within levels) endsBlock q.advance outcomes drops r ∧
        block (within levels) q = (.mk q.current (kept outcomes), r) ∧ q.Dropped drops r := by
  intro p
  have ready : p.Ready := ready_onSource _ maxDepth
  obtain ⟨outcomes, drops, q, rounds, same⟩ := rounds_of_statements (steady_within p.levels)
    (accounts_within p.levels) endsProgram rfl ready.rounds
  have noted : q.log = (drops.flatMap Drop.events).reverse := by
    have noted := rounds.dropped_all
    rw [Dropped] at noted
    rw [noted]
    exact List.append_nil _
  have reports : q.diagnostics = drops.map fun drop => drop.failure.diagnostic := by
    rw [Parser.diagnostics, noted, List.reverse_reverse, diagnostics_of_events]
  have ran : p.run = ⟨⟨kept outcomes⟩, q.diagnostics,
      drops.flatMap Drop.events ++ [.parsed (kept outcomes).length q.diagnostics.length]⟩ := by
    rw [Parser.run_of_statements same, noted, List.reverse_reverse]
  have counted : p.run.diagnostics.length = p.run.log.countP Event.skips := by
    rw [ran, List.countP_append, skips_of_events]
    show q.diagnostics.length = drops.length
    rw [reports, List.length_map]
  refine ⟨⟨outcomes, drops, q, rounds, ?_⟩, counted, ?_, ?_⟩
  · rw [ran]
    exact ⟨rfl, rfl, reports⟩
  · rw [← List.length_eq_zero_iff, counted, List.countP_eq_zero]
    simp only [Bool.not_eq_true]
  · intro levels q comes
    obtain ⟨outcomes, drops, r, rounds, built⟩ := rounds_of_block (steady_within levels)
      (accounts_within levels) (ready.of_comes comes)
    refine ⟨fun failure r failed => last_diagnostic_of_any (accounts_within levels) failed,
      outcomes, drops, r, rounds, built, ?_⟩
    exact (Dropped.refl q).trans rounds.dropped_all

end PrattFrontEnd
