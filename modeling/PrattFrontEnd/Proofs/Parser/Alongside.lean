import PrattFrontEnd.Proofs.Parser.Lockstep

/-!
The rules of the language in lockstep. Operands of any nesting run in lockstep, and so does all that
is built from them, recovery included. Main statements: `statements_alongside`, the two sides of a
sequence go on together up to where they end or part, and `Parser.run_alike`, parsers that see what
is alike build what is alike and report the same.
-/
namespace PrattFrontEnd

open Rule PrattFrontEnd.Parser Lockstep

def Lockstep.Operands {like : Likeness} (lockstep : Lockstep like) (lead : List Diagnostic)
    (operand other : Operand) : Prop :=
  ∀ k bound, lockstep.Runs lead k (lockstep.wants k) (lockstep.Standing k like.expr)
    (operand bound) (other bound)

section

variable {like : Likeness} {lockstep : Lockstep like} {lead : List Diagnostic} {k : Nat}
variable {operand other : Operand} (steady : ∀ bound, (operand bound).Steady)
variable (steadyToo : ∀ bound, (other bound).Steady)
variable (operands : lockstep.Operands lead operand other)

namespace Statement

include operands

theorem runs_binding : lockstep.Runs lead k (lockstep.Poised k) (lockstep.Resting k like.stmt)
    (binding operand) (binding other) :=
  Runs.here Runs.alike_poised fun _ _ alike => .of_poised <| .expect rfl <|
    Runs.name fun _ _ target => .of_poised <| .expect rfl <| .advance <|
      (operands k _).andThen fun _ _ value => .accept_semicolon (like.binding alike target value)

theorem runs_result : lockstep.Runs lead k (lockstep.Poised k) (lockstep.Resting k like.stmt)
    (result operand) (result other) :=
  Runs.here Runs.alike_poised fun _ _ alike => .advance <|
    (operands k _).andThen fun _ _ value => .accept_semicolon (like.result alike value)

theorem runs_expression : lockstep.Runs lead k (lockstep.wants k) (lockstep.Resting k like.stmt)
    (expression operand) (expression other) :=
  Runs.here (fun _ _ here => lockstep.alike_wants here) fun _ _ alike =>
    (operands k _).andThen fun _ _ value => .accept_semicolon (like.expression alike value)

theorem runs_any : lockstep.Runs lead k (lockstep.wants k) (lockstep.Resting k like.stmt)
    (any operand) (any other) := by
  intro p q kin here
  have kinds : p.current.kind = q.current.kind := like.kind (lockstep.alike_wants here)
  unfold any
  rw [← kinds]
  split
  · rename_i kind
    have inner : p.current.kind.inner = true := by rw [kind]; rfl
    exact runs_binding operands p q kin ⟨lockstep.takes here inner, inner⟩
  · rename_i kind
    have inner : p.current.kind.inner = true := by rw [kind]; rfl
    exact runs_result operands p q kin ⟨lockstep.takes here inner, inner⟩
  · exact runs_expression operands p q kin here

/-- Where two sequences end or part, and what they have built up to there. -/
structure Alongside (lockstep : Lockstep like) (lead : List Diagnostic) (operand other : Operand)
    (closes : Kind → Bool) (k : Nat) (p q : Parser) (ss ts : List Stmt) (r s : Parser) : Prop where
  alike : List.Forall₂ like.stmt ss ts
  kin : r.Kin lead s
  reaches : p.Reaches r
  reachesToo : q.Reaches s
  ends : (lockstep.lands k r.upcoming s.upcoming ∧ closes r.current.kind = true) ∨
    (k = 0 ∧ lockstep.parts r.upcoming s.upcoming)
  built : statements operand closes p =
    (ss ++ (statements operand closes r).1, (statements operand closes r).2)
  builtToo : statements other closes q =
    (ts ++ (statements other closes s).1, (statements other closes s).2)

omit operands in
theorem Alongside.here {closes : Kind → Bool} {p q : Parser} (kin : p.Kin lead q)
    (ends : (lockstep.lands k p.upcoming q.upcoming ∧ closes p.current.kind = true) ∨
      (k = 0 ∧ lockstep.parts p.upcoming q.upcoming)) :
    Alongside lockstep lead operand other closes k p q [] [] p q :=
  ⟨.nil, kin, .refl, .refl, ends, rfl, rfl⟩

include steady steadyToo

/-- A sequence runs in lockstep, whatever fails in it. -/
theorem statements_alongside {closes : Kind → Bool} (ends : closes .eof = true)
    (inside : ∀ kind : Kind, closes kind = false → kind = .rightBrace → k = 0) {p q : Parser}
    (kin : p.Kin lead q) (lands : lockstep.lands k p.upcoming q.upcoming) :
    ∃ ss ts r s, Alongside lockstep lead operand other closes k p q ss ts r s := by
  induction left : p.horizon using Nat.strongRecOn generalizing p q with
  | ind left ih =>
    have kinds : p.current.kind = q.current.kind := like.kind (lockstep.alike_lands lands)
    by_cases goes : closes p.current.kind = true
    · exact ⟨[], [], p, q, .here kin (.inl ⟨lands, goes⟩)⟩
    · have more : p.current.kind ≠ .eof := by
        intro ended
        rw [ended] at goes
        exact goes ends
      have goesToo : ¬ closes q.current.kind = true := kinds ▸ goes
      have wants := lockstep.begins lands more (inside _ (Bool.eq_false_iff.2 goes))
      have outcome := runs_any operands p q kin wants
      -- What follows the next statement, once both sides stand on its last token.
      have further {r s : Parser} (reaches : p.Reaches r) (reachesToo : q.Reaches s)
          (kin : r.Kin lead s) (rests : lockstep.rests k r.upcoming s.upcoming) :
          ∃ ss ts t u, Alongside lockstep lead operand other closes k r.advance s.advance ss ts
            t u := by
        have shorter := horizon_lt_of_statement more reaches
        rcases lockstep.resumes rests with lands | parts
        · rw [← upcoming_advance, ← upcoming_advance] at lands
          exact ih _ (left ▸ shorter) kin.advance lands rfl
        · rw [← upcoming_advance, ← upcoming_advance] at parts
          exact ⟨[], [], _, _, .here kin.advance (.inr parts)⟩
      cases run : any operand p with
      | mk result r =>
        cases runToo : any other q with
        | mk resultToo s =>
          have reaches := (steady_any steady).reaches run
          have reachesToo := (steady_any steadyToo).reaches runToo
          rw [run, runToo] at outcome
          cases outcome with
          | built kin' here =>
            obtain ⟨ss, ts, t, u, rest⟩ := further reaches reachesToo kin' here.2
            refine ⟨_ :: ss, _ :: ts, t, u, .cons here.1 rest.alike, rest.kin,
              reaches.advance.trans rest.reaches, reachesToo.advance.trans rest.reachesToo,
              rest.ends, ?_, ?_⟩
            · rw [statements_built steady ends kin.ready.rounds goes run, rest.built]
              rfl
            · rw [statements_built steadyToo ends kin.readyToo.rounds goesToo runToo, rest.builtToo]
              rfl
          | failed kin' here =>
            obtain ⟨kinToo, rests⟩ := lockstep.synchronized kin' here
            obtain ⟨ss, ts, t, u, rest⟩ := further (reaches.trans r.reaches_synchronize)
              (reachesToo.trans s.reaches_synchronize) kinToo rests
            refine ⟨ss, ts, t, u, rest.alike, rest.kin,
              (reaches.trans r.reaches_synchronize).advance.trans rest.reaches,
              (reachesToo.trans s.reaches_synchronize).advance.trans rest.reachesToo,
              rest.ends, ?_, ?_⟩
            · rw [statements_dropped steady ends kin.ready.rounds goes run]
              exact rest.built
            · rw [statements_dropped steadyToo ends kin.readyToo.rounds goesToo runToo]
              exact rest.builtToo

theorem runs_braced {done : β → β → Stream' Token → Stream' Token → Prop}
    {next nextToo : Block → Rule β}
    (after : ∀ b c, like.block b c →
      lockstep.Runs lead k (lockstep.stands k) done (next b) (nextToo c)) :
    lockstep.Runs lead k (lockstep.stands k) done
      (expect .leftBrace >>= fun _ => always (block operand) >>= next)
      (expect .leftBrace >>= fun _ => always (block other) >>= nextToo) := by
  intro p q kin here
  have same := Runs.peeks here
  by_cases found : p.peek.kind = .leftBrace
  · have one : expect .leftBrace p = (.ok (), p.advance) := if_pos found
    have two : expect .leftBrace q = (.ok (), q.advance) := if_pos (same ▸ found)
    have braces : like.token p.peek q.peek := (lockstep.alike_stands here).2
    have lands := lockstep.enters here found
    rw [← upcoming_advance, ← upcoming_advance, ← upcoming_advance, ← upcoming_advance] at lands
    obtain ⟨ss, ts, r, s, run⟩ := statements_alongside steady steadyToo operands
      (show endsBlock .eof = true from rfl)
      (fun kind goes brace => by rw [brace] at goes; cases goes) kin.advance.advance lands
    rcases run.ends with ⟨lands, ends⟩ | ⟨none, _⟩
    · have endsToo : endsBlock s.current.kind = true := by
        have kinds : r.current.kind = s.current.kind := like.kind (lockstep.alike_lands lands)
        rw [← kinds]
        exact ends
      have inside : block operand p.advance = (.mk p.peek ss, r) := by
        have whole := run.built
        rw [statements_closed ends, List.append_nil] at whole
        exact congrArg (fun result => (Block.mk p.peek result.1, result.2)) whole
      have insideToo : block other q.advance = (.mk q.peek ts, s) := by
        have whole := run.builtToo
        rw [statements_closed endsToo, List.append_nil] at whole
        exact congrArg (fun result => (Block.mk q.peek result.1, result.2)) whole
      rw [bind_of_ok one, bind_of_ok two]
      show lockstep.Ends lead k done (next _ _) (nextToo _ _)
      rw [inside, insideToo]
      exact after _ _ (like.braced braces run.alike) r s run.kin (lockstep.leaves lands ends)
    · cases none
  · have one : expect .leftBrace p = fail (.unexpected .leftBrace p.peek.kind) p.peek p :=
      if_neg found
    have two : expect .leftBrace q = fail (.unexpected .leftBrace q.peek.kind) q.peek q :=
      if_neg (same ▸ found)
    rw [bind_of_error one, bind_of_error two]
    exact .fail kin (lockstep.fails_of_stands here) (by rw [same]) p.peek q.peek

end Statement

namespace Expression

omit operand other in
theorem runs_integer : lockstep.Runs lead k (lockstep.Poised k) (lockstep.Standing k like.expr)
    integer integer := by
  intro p q kin here
  have alike : like.token p.current q.current := Runs.alike_poised _ _ here
  have same := like.text alike
  cases read : integerValue? p.current.text with
  | some value =>
    have one : integer p = (.ok (.integer p.current value), p) := by rw [integer, read]
    have two : integer q = (.ok (.integer q.current value), q) := by rw [integer, ← same, read]
    rw [one, two]
    exact .built kin ⟨like.integer alike, here.1⟩
  | none =>
    have one : integer p = fail (.badInteger p.current.text) p.current p := by rw [integer, read]
    have two : integer q = fail (.badInteger q.current.text) q.current q := by
      rw [integer, ← same, read]
    rw [one, two]
    exact .fail kin (lockstep.fails_of_stands here.1) (by rw [same]) p.current q.current

theorem runs_name : lockstep.Runs lead k (lockstep.Poised k) (lockstep.Standing k like.expr)
    (opening operand .name) (opening other .name) :=
  Runs.name fun n m alike => .of_poised <| by
    obtain ⟨_, a⟩ := n
    obtain ⟨_, b⟩ := m
    obtain ⟨tokens, rfl⟩ := alike
    exact .stand (like.name tokens)

theorem runs_string : lockstep.Runs lead k (lockstep.Poised k) (lockstep.Standing k like.expr)
    string string :=
  Runs.here Runs.alike_poised fun t u alike => .of_poised <| by
    rw [like.text alike]
    exact .stand (like.string alike)

theorem runs_boolean : lockstep.Runs lead k (lockstep.Poised k) (lockstep.Standing k like.expr)
    boolean boolean :=
  Runs.here Runs.alike_poised fun t u alike => .of_poised <| by
    rw [like.kind alike]
    exact .stand (like.boolean alike)

section

include operands

theorem runs_unary : lockstep.Runs lead k (lockstep.Poised k) (lockstep.Standing k like.expr)
    (unary operand) (unary other) :=
  Runs.here Runs.alike_poised fun t u alike => .advance <|
    (operands k _).andThen fun _ _ right => by
      rw [like.text alike]
      exact .stand (like.unary alike right)

theorem runs_group : lockstep.Runs lead k (lockstep.Poised k) (lockstep.Standing k like.expr)
    (group operand) (group other) :=
  .advance <| (operands k _).andThen fun _ _ inner => .expect rfl <| .of_poised <| .stand inner

theorem runs_moreItems (rounds : Nat) :
    lockstep.Runs lead k (lockstep.stands k) (lockstep.Standing k (List.Forall₂ like.expr))
      (moreItems operand rounds) (moreItems other rounds) := by
  induction rounds with
  | zero => exact .stand .nil
  | succ rounds ih =>
    exact .accept rfl (fun _ _ here => here)
      (.advance <| (operands k _).andThen fun _ _ item => ih.andThen fun _ _ items =>
        .stand (.cons item items))
      (.stand .nil)

include steady steadyToo

theorem runs_furtherItems :
    lockstep.Runs lead k (lockstep.stands k) (lockstep.Standing k (List.Forall₂ like.expr))
      (furtherItems operand) (furtherItems other) := by
  intro p q kin here
  have one : furtherItems operand p = moreItems operand (max p.span q.span) p :=
    moreItems_rounds steady _ _ kin.ready.rounds (Nat.le_trans kin.ready.rounds (Nat.le_max_left _ _))
  have two : furtherItems other q = moreItems other (max p.span q.span) q :=
    moreItems_rounds steadyToo _ _ kin.readyToo.rounds
      (Nat.le_trans kin.readyToo.rounds (Nat.le_max_right _ _))
  rw [one, two]
  exact runs_moreItems operands _ p q kin here

theorem runs_items {closing : Kind} (inner : closing.inner = true) :
    lockstep.Runs lead k (lockstep.Poised k) (lockstep.Standing k (List.Forall₂ like.expr))
      (items operand closing) (items other closing) :=
  .accept inner (fun _ _ here => here.1) (.of_poised <| .stand .nil)
    (.advance <| (operands k _).andThen fun _ _ item =>
      (runs_furtherItems steady steadyToo operands).andThen fun _ _ items =>
        .expect inner <| .of_poised <| .stand (.cons item items))

theorem runs_array : lockstep.Runs lead k (lockstep.Poised k) (lockstep.Standing k like.expr)
    (array operand) (array other) :=
  Runs.here Runs.alike_poised fun _ _ alike =>
    (runs_items steady steadyToo operands rfl).andThen fun _ _ elements =>
      .stand (like.array alike elements)

theorem runs_conditional : lockstep.Runs lead k (lockstep.Poised k) (lockstep.Standing k like.expr)
    (conditional operand) (conditional other) :=
  Runs.here Runs.alike_poised fun _ _ alike => .of_poised <| .expect rfl <| .advance <|
    (operands k _).andThen fun _ _ condition => .expect rfl <| .of_poised <|
      Statement.runs_braced steady steadyToo operands fun _ _ consequence =>
        .accept rfl (fun _ _ here => here)
          (.of_poised <| Statement.runs_braced steady steadyToo operands fun _ _ alternative =>
            .stand (like.alternative alike condition consequence alternative))
          (.stand (like.conditional alike condition consequence))

end

theorem runs_moreParameters (rounds : Nat) :
    lockstep.Runs lead k (lockstep.stands k) (lockstep.Standing k like.names)
      (moreParameters rounds) (moreParameters rounds) := by
  induction rounds with
  | zero => exact .stand .nil
  | succ rounds ih =>
    exact .accept rfl (fun _ _ here => here)
      (.of_poised <| .expect rfl <| Runs.name fun _ _ name => .of_poised <|
        ih.andThen fun _ _ names => .stand (.cons name names))
      (.stand .nil)

theorem runs_furtherParameters :
    lockstep.Runs lead k (lockstep.stands k) (lockstep.Standing k like.names)
      furtherParameters furtherParameters := by
  intro p q kin here
  have one : furtherParameters p = moreParameters (max p.span q.span) p :=
    moreParameters_rounds _ _ kin.ready.rounds (Nat.le_trans kin.ready.rounds (Nat.le_max_left _ _))
  have two : furtherParameters q = moreParameters (max p.span q.span) q :=
    moreParameters_rounds _ _ kin.readyToo.rounds
      (Nat.le_trans kin.readyToo.rounds (Nat.le_max_right _ _))
  rw [one, two]
  exact runs_moreParameters _ p q kin here

theorem runs_parameters :
    lockstep.Runs lead k (lockstep.Poised k) (lockstep.Standing k like.names)
      parameters parameters :=
  .accept rfl (fun _ _ here => here.1) (.of_poised <| .stand .nil)
    (.of_poised <| .expect rfl <| Runs.name fun _ _ name => .of_poised <|
      runs_furtherParameters.andThen fun _ _ names =>
        .expect rfl <| .of_poised <| .stand (.cons name names))

section

include operands steady steadyToo

theorem runs_function : lockstep.Runs lead k (lockstep.Poised k) (lockstep.Standing k like.expr)
    (function operand) (function other) :=
  Runs.here Runs.alike_poised fun _ _ alike => .of_poised <| .expect rfl <|
    runs_parameters.andThen fun _ _ names =>
      Statement.runs_braced steady steadyToo operands fun _ _ body =>
        .stand (like.function alike names body)

theorem runs_opening (rule : Opening) :
    lockstep.Runs lead k (lockstep.Poised k) (lockstep.Standing k like.expr)
      (opening operand rule) (opening other rule) := by
  cases rule with
  | name => exact runs_name
  | integer => exact runs_integer
  | string => exact runs_string
  | boolean => exact runs_boolean
  | unary => exact runs_unary operands
  | group => exact runs_group operands
  | conditional => exact runs_conditional steady steadyToo operands
  | function => exact runs_function steady steadyToo operands
  | array => exact runs_array steady steadyToo operands

theorem runs_continuation {left leftToo : Expr} (alike : like.expr left leftToo)
    (step : Continuation) :
    lockstep.Runs lead k (lockstep.Poised k) (lockstep.Standing k like.expr)
      (continuation operand left step) (continuation other leftToo step) := by
  cases step with
  | binary =>
    refine Runs.here Runs.alike_poised fun t u tokens => .strength fun bound => .advance <|
      (operands k _).andThen fun _ _ right => ?_
    rw [like.text tokens]
    exact .stand (like.binary tokens alike right)
  | call =>
    exact Runs.here Runs.alike_poised fun _ _ tokens =>
      (runs_items steady steadyToo operands rfl).andThen fun _ _ arguments =>
        .stand (like.call tokens alike arguments)
  | index =>
    exact Runs.here Runs.alike_poised fun _ _ tokens => .advance <|
      (operands k _).andThen fun _ _ position => .expect rfl <| .of_poised <|
        .stand (like.index tokens alike position)

omit operands steady steadyToo in
theorem inner_of_continuation {kind : Kind} {step : Continuation}
    (ruled : RuleTable.standard.continuation kind = some step) : kind.inner = true := by
  cases kind <;> cases ruled <;> rfl

omit operands steady steadyToo in
theorem inner_of_opening {kind : Kind} {rule : Opening}
    (opens : RuleTable.standard.opening kind = some rule) : kind.inner = true := by
  cases kind <;> cases opens <;> rfl

theorem runs_climb (bound : Precedence) (rounds : Nat) {left leftToo : Expr}
    (alike : like.expr left leftToo) :
    lockstep.Runs lead k (lockstep.stands k) (lockstep.Standing k like.expr)
      (climb operand bound rounds left) (climb other bound rounds leftToo) := by
  induction rounds generalizing left leftToo with
  | zero => exact .stand alike
  | succ rounds ih =>
    intro p q kin here
    have same := Runs.peeks here
    have continued : continues bound p = continues bound q := by
      rw [continues, continues, peekPrecedence, peekPrecedence, kin.ready.table,
        kin.readyToo.table, same]
    have stopped : lockstep.Ends lead k (lockstep.Standing k like.expr)
        (.ok left, p) (.ok leftToo, q) := .built kin ⟨alike, here⟩
    by_cases more : continues bound p = true
    · have rules : q.table.continuation q.peek.kind = p.table.continuation p.peek.kind := by
        rw [kin.ready.table, kin.readyToo.table, same]
      cases ruled : p.table.continuation p.peek.kind with
      | none =>
        rw [climb_unruled ruled, climb_unruled (rules.trans ruled)]
        exact stopped
      | some step =>
        rw [climb_step more ruled, climb_step (continued ▸ more) (rules.trans ruled)]
        rw [kin.ready.table] at ruled
        have moved := Runs.moved here (inner_of_continuation ruled)
        exact ((runs_continuation steady steadyToo operands alike step).andThen
          fun _ _ longer => ih longer) p.advance q.advance kin.advance moved
    · rw [climb_stop more, climb_stop (continued ▸ more)]
      exact stopped

theorem runs_onward (bound : Precedence) {left leftToo : Expr} (alike : like.expr left leftToo) :
    lockstep.Runs lead k (lockstep.stands k) (lockstep.Standing k like.expr)
      (onward operand bound left) (onward other bound leftToo) := by
  intro p q kin here
  have silent {p : Parser} (ready : p.Ready) : p.table.precedenceOf .eof = .lowest := by
    rw [ready.table]
    rfl
  have one : onward operand bound left p = climb operand bound (max p.span q.span) left p :=
    climb_rounds steady _ _ (silent kin.ready) kin.ready.rounds
      (Nat.le_trans kin.ready.rounds (Nat.le_max_left _ _))
  have two : onward other bound leftToo q = climb other bound (max p.span q.span) leftToo q :=
    climb_rounds steadyToo _ _ (silent kin.readyToo) kin.readyToo.rounds
      (Nat.le_trans kin.readyToo.rounds (Nat.le_max_right _ _))
  rw [one, two]
  exact runs_climb steady steadyToo operands bound _ alike p q kin here

theorem runs_start (bound : Precedence) :
    lockstep.Runs lead k (lockstep.wants k) (lockstep.Standing k like.expr)
      (start operand bound) (start other bound) := by
  intro p q kin here
  have same : p.current.kind = q.current.kind := like.kind (lockstep.alike_wants here)
  have rules : q.table.opening q.current.kind = p.table.opening p.current.kind := by
    rw [kin.ready.table, kin.readyToo.table, same]
  cases opens : p.table.opening p.current.kind with
  | none =>
    have one : start operand bound p = fail (.noOpening p.current.kind) p.current p := by
      rw [start, opens]
    have two : start other bound q = fail (.noOpening q.current.kind) q.current q := by
      rw [start, rules, opens]
    rw [one, two]
    exact .fail kin (lockstep.fails_of_wants here) (by rw [same]) p.current q.current
  | some rule =>
    rw [start_opened steady opens, start_opened steadyToo (rules.trans opens)]
    rw [kin.ready.table] at opens
    have inner := inner_of_opening opens
    exact ((runs_opening steady steadyToo operands rule).andThen fun _ _ left =>
      runs_onward steady steadyToo operands bound left) p q kin ⟨lockstep.takes here inner, inner⟩

end

end Expression

end

theorem Expression.runs_within {like : Likeness} (lockstep : Lockstep like)
    (lead : List Diagnostic) (levels : Nat) :
    lockstep.Operands lead (within levels) (within levels) := by
  induction levels with
  | zero =>
    intro k bound p q kin here
    exact .fail kin (lockstep.fails_of_wants here) (by rw [kin.maxDepth]) p.current q.current
  | succ levels ih =>
    intro k bound p q kin here
    have deeper := kin.at_depth (congrArg (· + 1) kin.depth)
    have outcome := runs_start (steady_within levels) (steady_within levels) ih bound _ _ deeper here
    unfold within
    cases one : start (within levels) bound { p with depth := p.depth + 1 } with
    | mk result r =>
      cases two : start (within levels) bound { q with depth := q.depth + 1 } with
      | mk resultToo s =>
        rw [one, two] at outcome
        cases outcome with
        | built kin here => exact .built (kin.at_depth (congrArg (· - 1) kin.depth)) here
        | failed kin here => exact .failed (kin.at_depth (congrArg (· - 1) kin.depth)) here

namespace Parser

variable {like : Likeness} {lead : List Diagnostic} {p q : Parser}

theorem statements_of_run (p : Parser) :
    p.run.program.statements =
      (Statement.statements p.operand Statement.endsProgram p).1 :=
  congrArg (fun r => r.program.statements) (run_of_statements rfl)

theorem diagnostics_of_run (p : Parser) :
    p.run.diagnostics =
      (Statement.statements p.operand Statement.endsProgram p).2.diagnostics :=
  congrArg Parsed.diagnostics (run_of_statements rfl)

theorem Kin.operand (kin : p.Kin lead q) : p.operand = q.operand := by
  rw [Parser.operand, Parser.operand, levels, levels, kin.depth, kin.maxDepth]

theorem program_alongside (lockstep : Lockstep like) (kin : p.Kin lead q)
    (lands : lockstep.lands 0 p.upcoming q.upcoming) :
    ∃ ss ts r s, Statement.Alongside lockstep lead p.operand p.operand Statement.endsProgram 0 p q
      ss ts r s :=
  Statement.statements_alongside (Expression.steady_within _) (Expression.steady_within _)
    (Expression.runs_within lockstep lead p.levels) rfl (fun _ _ _ => rfl) kin lands

end Parser

/-- The tokens to come are alike on the two sides throughout. -/
def Likeness.Throughout (like : Likeness) (σ τ : Stream' Token) : Prop :=
  ∀ n, like.token (σ.get n) (τ.get n)

theorem Likeness.Throughout.tail {like : Likeness} {σ τ : Stream' Token}
    (alike : like.Throughout σ τ) : like.Throughout σ.tail τ.tail :=
  fun n => alike (n + 1)

theorem Likeness.Throughout.rested {like : Likeness} {σ τ : Stream' Token}
    (alike : like.Throughout σ τ) (opened : Nat) : Rested opened σ ↔ Rested opened τ := by
  have first : σ.head.kind = τ.head.kind := like.kind (alike 0)
  have second : σ.tail.head.kind = τ.tail.head.kind := like.kind (alike 1)
  rw [Rested, Rested, first, second]

def Lockstep.throughout (like : Likeness) : Lockstep like where
  lands _ := like.Throughout
  wants _ := like.Throughout
  stands _ := like.Throughout
  rests _ := like.Throughout
  fails _ := like.Throughout
  skips _ _ := like.Throughout
  parts _ _ := False
  alike_lands alike := alike 0
  alike_wants alike := alike 0
  alike_stands alike := ⟨alike 0, alike 1⟩
  alike_fails alike := alike 0
  begins alike _ _ := alike
  takes alike _ := alike
  moves alike _ := alike.tail
  opens alike _ := alike.tail
  enters alike _ := alike.tail.tail
  leaves alike _ := alike
  halts alike _ := alike.tail
  rests_of_stands alike := alike
  fails_of_stands alike := alike
  fails_of_wants alike := alike
  skips_of_fails alike := alike
  rested alike rested := ⟨(alike.rested _).1 rested, alike⟩
  goes alike goes := ⟨fun rested => goes ((alike.rested _).2 rested), alike 1, alike.tail⟩
  resumes alike := .inl alike.tail

/-- Parsers that see what is alike throughout build what is alike and report the same. -/
theorem Parser.run_alike {like : Likeness} {lead : List Diagnostic} {p q : Parser}
    (kin : p.Kin lead q) (alike : like.Throughout p.upcoming q.upcoming) :
    List.Forall₂ like.stmt p.run.program.statements q.run.program.statements ∧
      p.run.diagnostics = lead ++ q.run.diagnostics := by
  obtain ⟨ss, ts, r, s, run⟩ := program_alongside (.throughout like) kin alike
  rcases run.ends with ⟨alikeThere, ended⟩ | ⟨_, never⟩
  · have kinds : r.current.kind = s.current.kind := like.kind (alikeThere 0)
    rw [statements_of_run, statements_of_run, diagnostics_of_run, diagnostics_of_run, ← kin.operand,
      run.built, run.builtToo, Statement.statements_closed ended,
      Statement.statements_closed (kinds ▸ ended), List.append_nil, List.append_nil]
    exact ⟨run.alike, run.kin.diagnostics⟩
  · cases never

end PrattFrontEnd
