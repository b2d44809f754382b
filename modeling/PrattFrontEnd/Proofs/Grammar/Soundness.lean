import PrattFrontEnd.Proofs.Grammar.Completeness

/-!
What is parsed without a word is derivable, and the tree built is the tree of a derivation. The loop
over the operators keeps a derivation of what it has built so far, at a stratum that the next token
cannot tighten. Main statements: `sound_within` and `derivation_of_run`.
-/
namespace PrattFrontEnd

open Rule Expression Statement PrattFrontEnd.Parser

def Level.rank : Level → Nat
  | equality => 0
  | comparison => 1
  | sum => 2
  | product => 3
  | unary => 4
  | applied => 5
  | primary => 6

theorem Level.rank_of_tighter {l m : Level} (below : l.tighter? = some m) : m.rank = l.rank + 1 := by
  cases l <;> cases below <;> rfl

theorem Level.tighter_of_rank_lt {l m : Level} (looser : l.rank < m.rank) :
    ∃ n, l.tighter? = some n := by
  cases l with
  | primary => cases m <;> simp [rank] at looser
  | _ => exact ⟨_, rfl⟩

theorem Level.eq_of_rank_eq {l m : Level} (same : l.rank = m.rank) : l = m := by
  cases l <;> cases m <;> first | rfl | cases same

def Precedence.level : Precedence → Level
  | lowest => .equality
  | equality => .comparison
  | comparison => .sum
  | sum => .product
  | product | unary | call | index => .unary

theorem Precedence.level_rank_le_unary (bound : Precedence) :
    bound.level.rank ≤ Level.unary.rank := by
  cases bound <;> decide

theorem Precedence.level_rank_le (bound : Precedence) : bound.level.rank ≤ Level.applied.rank := by
  cases bound <;> decide

theorem Level.bound_le_unary {k : Kind} {l : Level} (known : k.operatorLevel? = some l) :
    l.bound ≤ .unary := by
  cases k <;> cases known <;> decide

theorem Level.level_bound {k : Kind} {l m : Level} (known : k.operatorLevel? = some l)
    (below : l.tighter? = some m) : l.bound.level = m := by
  cases k <;> cases known <;> cases below <;> rfl

theorem Level.rank_le_of_not_bound_lt {k : Kind} {l m : Level} (known : k.operatorLevel? = some l)
    (weak : ¬ m.bound < l.bound) : l.rank ≤ m.rank := by
  cases k <;> cases known <;> cases m <;> first | decide | exact absurd (by decide) weak

theorem Level.rank_level_le {k : Kind} {l : Level} {bound : Precedence}
    (known : k.operatorLevel? = some l) (under : bound < l.bound) : bound.level.rank ≤ l.rank := by
  cases k <;> cases known <;> cases bound <;> first | decide | exact absurd under (by decide)

theorem Level.applied_le_of_not_bound_lt {l : Level} (weak : ¬ l.bound < .call) :
    applied.rank ≤ l.rank := by
  cases l <;> first | decide | exact absurd (by decide) weak

theorem Derivation.loosen {l m : Level} {e : Expr} {ts rest : List Token} (looser : l.rank ≤ m.rank)
    (d : Derivation (.expr m e) ts rest) : Nonempty (Derivation (.expr l e) ts rest) := by
  induction gap : m.rank - l.rank generalizing l with
  | zero =>
    have same : l = m := Level.eq_of_rank_eq (by omega)
    exact ⟨same ▸ d⟩
  | succ gap ih =>
    obtain ⟨n, below⟩ := Level.tighter_of_rank_lt (l := l) (m := m) (by omega)
    have step := Level.rank_of_tighter below
    obtain ⟨inner⟩ := ih (l := n) (by omega) (by omega)
    exact ⟨.tighter below inner⟩

inductive Kind.Continues (bound : Precedence) (k : Kind) : Continuation → Prop where
  | binary {l m : Level} (known : k.operatorLevel? = some l) (below : l.tighter? = some m)
      (tighter : bound < l.bound) : Continues bound k .binary
  | call (kind : k = .leftParen) : Continues bound k .call
  | index (kind : k = .leftBracket) : Continues bound k .index

theorem Kind.continues_of_rule {bound : Precedence} {k : Kind} {step : Continuation}
    (tighter : bound < RuleTable.standard.precedenceOf k)
    (ruled : RuleTable.standard.continuation k = some step) : k.Continues bound step := by
  cases k <;> cases ruled <;> first
    | exact .call rfl
    | exact .index rfl
    | exact .binary rfl rfl tighter

def Opening.kinds : Opening → List Kind
  | name => [.identifier]
  | integer => [.integer]
  | string => [.string]
  | boolean => [.trueWord, .falseWord]
  | unary => [.bang, .minus]
  | group => [.leftParen]
  | conditional => [.ifWord]
  | function => [.functionWord]
  | array => [.leftBracket]

theorem Kind.mem_kinds_of_opening {k : Kind} {rule : Opening}
    (opens : RuleTable.standard.opening k = some rule) : k ∈ rule.kinds := by
  cases k <;> cases opens <;> decide

theorem Kind.ne_eof_of_opening {k : Kind} {rule : Opening}
    (opens : RuleTable.standard.opening k = some rule) : k ≠ .eof := by
  rintro rfl
  cases opens

/-- What comes of a parse: a phrase that reaches up to the tokens behind the parser, none of which
binds tighter than a bound. -/
def Parser.Derives (q : Parser) (bound : Precedence) (phrase : Phrase) (ts : List Token) : Prop :=
  ∃ rest, q.Ahead rest ∧ Loose bound rest ∧ Nonempty (Derivation phrase ts rest)

theorem loose_of_stopped {bound : Precedence} {p : Parser} {rest : List Token} (ready : p.Ready)
    (ahead : p.Ahead rest) (stopped : continues bound p = false) : Loose bound rest := by
  intro t front
  cases rest with
  | nil => cases front
  | cons u rest =>
    cases front
    intro tighter
    have weak : p.peek.kind ≠ .semicolon → ¬ bound < p.peekPrecedence := by
      simpa [continues] using stopped
    rw [peekPrecedence, ready.table, ahead.1] at weak
    by_cases semicolon : t.kind = .semicolon
    · rw [semicolon] at tighter
      revert tighter
      cases bound <;> decide
    · exact weak semicolon tighter

def Operand.Sound (operand : Operand) : Prop :=
  ∀ (bound : Precedence) (p q : Parser) (e : Expr) (ts : List Token), bound ≤ .unary → p.Ready →
    p.On ts → operand bound p = (.ok e, q) → q.diagnostics = [] →
    q.Derives bound (.expr bound.level e) ts

section

variable {operand : Operand} (steady : ∀ bound, (operand bound).Steady) (sound : operand.Sound)
variable {p q : Parser} {e : Expr} {es : List Expr} {ns : List Name} {b : Block} {s : Stmt}
variable {ss : List Stmt} {ts : List Token}

theorem sound_furtherParameters (ready : p.Ready) (ahead : p.Ahead ts)
    (run : furtherParameters p = (.ok ns, q)) :
    ∃ rest, q.Ahead rest ∧ Nonempty (Derivation (.furtherNames ns) ts rest) := by
  induction ns generalizing p ts with
  | nil =>
    rcases (furtherParameters_eq_ok ready.rounds).1 run with ⟨_, _, rfl⟩ | ⟨_, _, _, _, none⟩
    · exact ⟨ts, ahead, ⟨.lastName⟩⟩
    · cases none
  | cons n ns ih =>
    rcases (furtherParameters_eq_ok ready.rounds).1 run with
      ⟨_, none, _⟩ | ⟨more, named, others, further, same⟩
    · cases none
    · cases same
      obtain ⟨tail, rfl, behind⟩ := ahead_split ahead (by rw [more]; decide)
      obtain ⟨tail, rfl, beyond⟩ := ahead_split behind (by rw [named]; decide)
      obtain ⟨rest, last, ⟨d⟩⟩ :=
        ih (ready.of_reaches Reaches.refl.advance.advance) beyond further
      exact ⟨rest, last, ⟨.nextName _ _ more named d⟩⟩

theorem sound_parameters (ready : p.Ready) (ahead : p.Ahead ts)
    (run : parameters p = (.ok ns, q)) :
    ∃ close rest, close.kind = .rightParen ∧ q.Ahead rest ∧
      Nonempty (Derivation (.names ns) ts (close :: rest)) := by
  rcases parameters_eq_ok.1 run with
    ⟨empty, rfl, rfl⟩ | ⟨named, others, r, further, closed, rfl, rfl⟩
  · obtain ⟨rest, rfl, behind⟩ := ahead_split ahead (by rw [empty]; decide)
    exact ⟨p.peek, rest, empty, behind, ⟨.noNames⟩⟩
  · obtain ⟨tail, rfl, behind⟩ := ahead_split ahead (by rw [named]; decide)
    obtain ⟨rest, last, ⟨d⟩⟩ :=
      sound_furtherParameters (ready.of_reaches Reaches.refl.advance) behind further
    obtain ⟨rest, rfl, beyond⟩ := ahead_split last (by rw [closed]; decide)
    exact ⟨r.peek, rest, closed, beyond, ⟨.names _ named d⟩⟩

include steady sound

theorem sound_furtherItems (ready : p.Ready) (ahead : p.Ahead ts)
    (run : furtherItems operand p = (.ok es, q)) (clean : q.diagnostics = []) :
    ∃ rest, q.Ahead rest ∧ Nonempty (Derivation (.furtherItems es) ts rest) := by
  induction es generalizing p ts with
  | nil =>
    rcases (furtherItems_eq_ok steady ready.rounds).1 run with ⟨_, _, rfl⟩ | ⟨_, _, _, _, _, _, none⟩
    · exact ⟨ts, ahead, ⟨.lastItem⟩⟩
    · cases none
  | cons item es ih =>
    rcases (furtherItems_eq_ok steady ready.rounds).1 run with
      ⟨_, none, _⟩ | ⟨more, item, r, others, built, further, same⟩
    · cases none
    · cases same
      obtain ⟨tail, rfl, behind⟩ := ahead_split ahead (by rw [more]; decide)
      have readyItem := ready.of_reaches Reaches.refl.advance.advance
      have cleanItem := (steady_furtherItems steady).clean further clean
      obtain ⟨mid, beyond, _, ⟨d⟩⟩ :=
        sound .lowest _ r item tail (by decide) readyItem (on_advance behind) built cleanItem
      obtain ⟨rest, last, ⟨others⟩⟩ :=
        ih (readyItem.of_reaches ((steady .lowest).reaches built)) beyond further
      exact ⟨rest, last, ⟨.nextItem _ more d others⟩⟩

theorem sound_items {closing : Kind} (closes : closing ≠ .eof) (ready : p.Ready)
    (ahead : p.Ahead ts) (run : items operand closing p = (.ok es, q))
    (clean : q.diagnostics = []) :
    ∃ close rest, close.kind = closing ∧ q.Ahead rest ∧
      Nonempty (Derivation (.items es) ts (close :: rest)) := by
  rcases items_eq_ok.1 run with
    ⟨empty, rfl, rfl⟩ | ⟨_, item, r, others, s, built, further, closed, rfl, rfl⟩
  · obtain ⟨rest, rfl, behind⟩ := ahead_split ahead (by rw [empty]; exact closes)
    exact ⟨p.peek, rest, empty, behind, ⟨.noItems⟩⟩
  · have readyItem := ready.of_reaches Reaches.refl.advance
    have cleanItem := (steady_furtherItems steady).clean further clean
    obtain ⟨mid, beyond, _, ⟨d⟩⟩ :=
      sound .lowest _ r item ts (by decide) readyItem (on_advance ahead) built cleanItem
    obtain ⟨rest, last, ⟨others⟩⟩ := sound_furtherItems steady sound
      (readyItem.of_reaches ((steady .lowest).reaches built)) beyond further clean
    obtain ⟨rest, rfl, behind⟩ := ahead_split last (by rw [closed]; exact closes)
    exact ⟨s.peek, rest, closed, behind, ⟨.items d others⟩⟩

omit steady in
theorem sound_value (ready : p.Ready) (on : p.On ts) (run : operand .lowest p = (.ok e, q))
    (clean : q.pastSemicolon.diagnostics = []) :
    ∃ mid rest, Nonempty (Derivation (.expr .equality e) ts mid) ∧ Ended mid rest ∧
      q.pastSemicolon.Ahead rest := by
  unfold pastSemicolon at clean ⊢
  by_cases semicolon : q.peek.kind = .semicolon
  · rw [if_pos semicolon] at clean ⊢
    obtain ⟨mid, ahead, _, d⟩ := sound .lowest p q e ts (by decide) ready on run clean
    obtain ⟨rest, rfl, behind⟩ := ahead_split ahead (by rw [semicolon]; decide)
    exact ⟨_, rest, d, Or.inl ⟨q.peek, semicolon, rfl⟩, behind⟩
  · rw [if_neg semicolon] at clean ⊢
    obtain ⟨mid, ahead, loose, d⟩ := sound .lowest p q e ts (by decide) ready on run clean
    refine ⟨mid, mid, d, Or.inr ⟨rfl, ?_⟩, ahead⟩
    intro t front
    have weak := loose t front
    rw [Kind.lowest_lt_precedenceOf] at weak
    exact Bool.eq_false_iff.2 weak

omit steady in
theorem sound_any (ready : p.Ready) (on : p.On ts) (more : p.current.kind ≠ .eof)
    (run : any operand p = (.ok s, q)) (clean : q.diagnostics = []) :
    ∃ rest, q.Ahead rest ∧ Nonempty (Derivation (.stmt s) ts rest) := by
  obtain ⟨tail, rfl, ahead⟩ := on_split on more
  unfold any at run
  split at run
  · rename_i kind
    obtain ⟨named, assigns, value, r, built, rfl, rfl⟩ := binding_eq_ok.1 run
    obtain ⟨tail, rfl, behind⟩ := ahead_split ahead (by rw [named]; decide)
    obtain ⟨tail, rfl, beyond⟩ := ahead_split behind (by rw [assigns]; decide)
    obtain ⟨mid, rest, ⟨d⟩, ended, last⟩ := sound_value sound
      (ready.of_reaches Reaches.refl.advance.advance.advance) (on_advance beyond) built clean
    exact ⟨rest, last, ⟨.binding _ _ _ kind named assigns d ended⟩⟩
  · rename_i kind
    obtain ⟨value, r, built, rfl, rfl⟩ := result_eq_ok.1 run
    obtain ⟨mid, rest, ⟨d⟩, ended, last⟩ := sound_value sound
      (ready.of_reaches Reaches.refl.advance) (on_advance ahead) built clean
    exact ⟨rest, last, ⟨.result _ kind d ended⟩⟩
  · obtain ⟨value, r, built, rfl, rfl⟩ := expression_eq_ok.1 run
    obtain ⟨mid, rest, ⟨d⟩, ended, last⟩ := sound_value sound ready on built clean
    exact ⟨rest, last, ⟨.expression d ended⟩⟩

theorem sound_sequence {closes : Kind → Bool} (ends : closes .eof = true) (rounds : Nat)
    (enough : p.horizon ≤ rounds) (ready : p.Ready) (on : p.On ts)
    (run : sequence operand closes rounds p = (ss, q)) (clean : q.diagnostics = []) :
    ∃ rest, q.On rest ∧ closes q.current.kind = true ∧
      Nonempty (Derivation (.stmts ss) ts rest) := by
  induction rounds generalizing p ss ts with
  | zero =>
    cases run
    have ended := ended_of_horizon (Nat.le_zero.1 enough)
    exact ⟨ts, on, by rw [ended, ends], ⟨.noStmts⟩⟩
  | succ rounds ih =>
    by_cases goes : closes p.current.kind = true
    · rw [sequence_closed goes] at run
      cases run
      exact ⟨ts, on, goes, ⟨.noStmts⟩⟩
    · have more : p.current.kind ≠ .eof := by
        intro ended
        rw [ended] at goes
        exact goes ends
      cases built : any operand p with
      | mk result r =>
        have reaches := (steady_any steady).reaches built
        cases result with
        | ok statement =>
          rw [sequence_built goes built] at run
          cases run
          have shorter := horizon_lt_of_statement more reaches
          have cleanFirst := (reaches_sequence steady closes rounds r.advance).clean clean
          obtain ⟨mid, ahead, ⟨first⟩⟩ := sound_any sound ready on more built cleanFirst
          obtain ⟨rest, last, closed, ⟨further⟩⟩ := ih (by omega)
            (ready.of_reaches reaches.advance) (on_advance ahead) rfl
          exact ⟨rest, last, closed, ⟨.stmts first further⟩⟩
        | error failure =>
          rw [sequence_dropped goes built] at run
          have later := r.reaches_synchronize.advance.trans
            (reaches_sequence steady closes rounds r.synchronize.advance)
          rw [run] at later
          have reported := ((steady_any steady) p).reports failure (by rw [built])
          rw [built] at reported
          exact absurd (later.clean clean) (diagnostics_ne_nil reported)

theorem sound_block (ready : p.Ready) (on : p.On ts) (braced : p.current.kind = .leftBrace)
    (run : Statement.block operand p = (b, q)) (clean : q.diagnostics = []) :
    ∃ rest, q.Ahead rest ∧ Nonempty (Derivation (.block b) ts rest) := by
  obtain ⟨tail, rfl, ahead⟩ := on_split on (by rw [braced]; decide)
  cases inside : sequence operand endsBlock p.span p.advance with
  | mk ss r =>
    rw [Statement.block, inside] at run
    cases run
    have readyInside := ready.of_reaches Reaches.refl.advance
    obtain ⟨rest, last, closed, ⟨d⟩⟩ := sound_sequence steady sound rfl p.span readyInside.rounds
      readyInside (on_advance ahead) inside clean
    cases rest with
    | nil => exact ⟨[], last.2, ⟨.unclosed _ braced d⟩⟩
    | cons close rest =>
      have brace : close.kind = .rightBrace := by
        rw [last.1] at closed
        have kinds : close.kind = .rightBrace ∨ close.kind = .eof := by
          simpa [endsBlock] using closed
        exact kinds.resolve_right last.2.1
      exact ⟨rest, last.2.2, ⟨.closed _ close braced brace d⟩⟩

theorem sound_conditional (ready : p.Ready) (on : p.On ts) (kind : p.current.kind = .ifWord)
    (run : conditional operand p = (.ok e, q)) (clean : q.diagnostics = []) :
    ∃ rest, q.Ahead rest ∧ Nonempty (Derivation (.expr .primary e) ts rest) := by
  obtain ⟨opens, condition, r, built, closes, braced, consequence, s, block, further⟩ :=
    conditional_eq_ok.1 run
  obtain ⟨tail, rfl, ahead⟩ := on_split on (by rw [kind]; decide)
  obtain ⟨tail, rfl, behind⟩ := ahead_split ahead (by rw [opens]; decide)
  have readyCondition := ready.of_reaches Reaches.refl.advance.advance
  have readyBlock := readyCondition.of_reaches ((steady .lowest).reaches built).advance.advance
  have reaches := reaches_block steady r.advance.advance
  rw [block] at reaches
  rcases further with ⟨otherwise, bracedToo, alternative, second, rfl⟩ | ⟨_, rfl, rfl⟩
  · have reachesToo := reaches_block steady s.advance.advance
    rw [second] at reachesToo
    have cleanBlock : s.diagnostics = [] := reachesToo.clean clean
    obtain ⟨mid, beyond, _, ⟨d⟩⟩ := sound .lowest _ r condition tail (by decide) readyCondition
      (on_advance behind) built (reaches.clean cleanBlock)
    obtain ⟨mid, rfl, inside⟩ := ahead_split beyond (by rw [closes]; decide)
    obtain ⟨late, last, ⟨first⟩⟩ := sound_block steady sound readyBlock (on_advance inside) braced
      block cleanBlock
    obtain ⟨late, rfl, insideToo⟩ := ahead_split last (by rw [otherwise]; decide)
    obtain ⟨rest, final, ⟨other⟩⟩ := sound_block steady sound
      (readyBlock.of_reaches reaches.advance.advance) (on_advance insideToo) bracedToo second clean
    exact ⟨rest, final, ⟨.alternative _ _ _ _ kind opens closes otherwise d first other⟩⟩
  · obtain ⟨mid, beyond, _, ⟨d⟩⟩ := sound .lowest _ r condition tail (by decide) readyCondition
      (on_advance behind) built (reaches.clean clean)
    obtain ⟨mid, rfl, inside⟩ := ahead_split beyond (by rw [closes]; decide)
    obtain ⟨rest, last, ⟨first⟩⟩ := sound_block steady sound readyBlock (on_advance inside) braced
      block clean
    exact ⟨rest, last, ⟨.conditional _ _ _ kind opens closes d first⟩⟩

theorem sound_function (ready : p.Ready) (on : p.On ts) (kind : p.current.kind = .functionWord)
    (run : function operand p = (.ok e, q)) (clean : q.diagnostics = []) :
    ∃ rest, q.Ahead rest ∧ Nonempty (Derivation (.expr .primary e) ts rest) := by
  obtain ⟨opens, names, r, listed, braced, body, block, rfl⟩ := function_eq_ok.1 run
  obtain ⟨tail, rfl, ahead⟩ := on_split on (by rw [kind]; decide)
  obtain ⟨tail, rfl, behind⟩ := ahead_split ahead (by rw [opens]; decide)
  have readyNames := ready.of_reaches Reaches.refl.advance
  obtain ⟨close, mid, closes, beyond, ⟨d⟩⟩ := sound_parameters readyNames behind listed
  obtain ⟨rest, last, ⟨inside⟩⟩ := sound_block steady sound
    (readyNames.of_reaches (steady_parameters.reaches listed).advance) (on_advance beyond) braced
    block clean
  exact ⟨rest, last, ⟨.function _ _ close kind opens closes d inside⟩⟩

theorem sound_opening {rule : Opening} (ready : p.Ready) (on : p.On ts)
    (opens : RuleTable.standard.opening p.current.kind = some rule)
    (run : opening operand rule p = (.ok e, q)) (clean : q.diagnostics = []) :
    ∃ l : Level, Level.unary.rank ≤ l.rank ∧ q.Derives l.bound (.expr l e) ts := by
  have kinds := Kind.mem_kinds_of_opening opens
  have more := Kind.ne_eof_of_opening opens
  have primary : (∃ rest, q.Ahead rest ∧ Nonempty (Derivation (.expr .primary e) ts rest)) →
      ∃ l : Level, Level.unary.rank ≤ l.rank ∧ q.Derives l.bound (.expr l e) ts :=
    fun ⟨rest, ahead, d⟩ => ⟨.primary, by decide, rest, ahead, loose_index rest, d⟩
  obtain ⟨tail, rfl, ahead⟩ := on_split on more
  cases rule with
  | name =>
    cases run
    exact primary ⟨tail, ahead, ⟨.name _ (List.mem_singleton.1 kinds)⟩⟩
  | integer =>
    obtain ⟨value, read, rfl, rfl⟩ := integer_eq_ok.1 run
    obtain ⟨digits, bound, rfl⟩ := integerValue?_eq_some_iff.1 read
    exact primary ⟨tail, ahead, ⟨.integer _ (List.mem_singleton.1 kinds) digits bound⟩⟩
  | string =>
    obtain ⟨rfl, rfl⟩ := string_eq_ok.1 run
    exact primary ⟨tail, ahead, ⟨.string _ (List.mem_singleton.1 kinds)⟩⟩
  | boolean =>
    obtain ⟨rfl, rfl⟩ := boolean_eq_ok.1 run
    simp only [Opening.kinds, List.mem_cons, List.not_mem_nil, or_false] at kinds
    refine primary ⟨tail, ahead, ?_⟩
    rcases kinds with kind | kind
    · rw [decide_eq_true kind]
      exact ⟨.yes _ kind⟩
    · rw [decide_eq_false (by rw [kind]; decide)]
      exact ⟨.no _ kind⟩
  | unary =>
    obtain ⟨right, built, rfl⟩ := unary_eq_ok.1 run
    simp only [Opening.kinds, List.mem_cons, List.not_mem_nil, or_false] at kinds
    obtain ⟨rest, last, loose, ⟨d⟩⟩ := sound .unary _ q right tail (by decide)
      (ready.of_reaches Reaches.refl.advance) (on_advance ahead) built clean
    exact ⟨.unary, by decide, rest, last, loose, ⟨.unary _ kinds d⟩⟩
  | group =>
    obtain ⟨r, built, closes, rfl⟩ := group_eq_ok.1 run
    obtain ⟨rest, last, _, ⟨d⟩⟩ := sound .lowest _ r e tail (by decide)
      (ready.of_reaches Reaches.refl.advance) (on_advance ahead) built clean
    obtain ⟨rest, rfl, behind⟩ := ahead_split last (by rw [closes]; decide)
    exact primary ⟨rest, behind, ⟨.group _ _ (List.mem_singleton.1 kinds) closes d⟩⟩
  | conditional =>
    exact primary (sound_conditional steady sound ready on (List.mem_singleton.1 kinds) run clean)
  | function =>
    exact primary (sound_function steady sound ready on (List.mem_singleton.1 kinds) run clean)
  | array =>
    obtain ⟨elements, listed, rfl⟩ := array_eq_ok.1 run
    obtain ⟨close, rest, closes, behind, ⟨d⟩⟩ :=
      sound_items steady sound (by decide) ready ahead listed clean
    exact primary ⟨rest, behind, ⟨.array _ close (List.mem_singleton.1 kinds) closes d⟩⟩

theorem sound_continuation {bound : Precedence} {left longer : Expr} {step : Continuation}
    (ready : p.Ready) (more : continues bound p = true)
    (ruled : RuleTable.standard.continuation p.peek.kind = some step)
    (before : ∃ l : Level, bound.level.rank ≤ l.rank ∧ p.Derives l.bound (.expr l left) ts)
    (run : continuation operand left step p.advance = (.ok longer, q))
    (clean : q.diagnostics = []) :
    ∃ l : Level, bound.level.rank ≤ l.rank ∧ q.Derives l.bound (.expr l longer) ts := by
  obtain ⟨l, tight, mid, ahead, loose, ⟨d⟩⟩ := before
  have tighter : bound < RuleTable.standard.precedenceOf p.peek.kind := by
    simp only [continues, peekPrecedence, ready.table, Bool.and_eq_true, decide_eq_true_eq] at more
    exact more.2
  have present : p.peek.kind ≠ .eof := by
    intro ended
    rw [ended] at ruled
    cases ruled
  obtain ⟨tail, rfl, behind⟩ := ahead_split ahead present
  have weak := loose p.peek rfl
  have readyBehind := ready.of_reaches Reaches.refl.advance
  cases Kind.continues_of_rule tighter ruled with
  | binary known below under =>
    rename_i k m
    obtain ⟨right, built, rfl⟩ := binary_eq_ok.1 run
    have strength := (Kind.rules_of_operatorLevel? known).1
    have own : p.advance.currentPrecedence = k.bound := by
      rw [currentPrecedence, advance_table, ready.table, advance_current, strength]
    rw [own] at built
    obtain ⟨rest, last, looseToo, ⟨r⟩⟩ := sound k.bound _ q right tail
      (Level.bound_le_unary known) (readyBehind.of_reaches Reaches.refl.advance)
      (on_advance behind) built clean
    rw [strength] at weak
    obtain ⟨looser⟩ := d.loosen (Level.rank_le_of_not_bound_lt known weak)
    rw [Level.level_bound known below] at r
    exact ⟨k, Level.rank_level_le known under, rest, last, looseToo,
      ⟨.binary p.peek known below looser r⟩⟩
  | call kind =>
    obtain ⟨arguments, listed, rfl⟩ := call_eq_ok.1 run
    obtain ⟨close, rest, closes, last, ⟨r⟩⟩ :=
      sound_items steady sound (by decide) readyBehind behind listed clean
    obtain ⟨looser⟩ := d.loosen (l := .applied) (Level.applied_le_of_not_bound_lt (by
      rw [kind] at weak
      exact weak))
    exact ⟨.applied, Precedence.level_rank_le bound, rest, last, loose_index rest,
      ⟨.call p.peek close kind closes looser r⟩⟩
  | index kind =>
    obtain ⟨position, r, built, closes, rfl, rfl⟩ := index_eq_ok.1 run
    obtain ⟨rest, last, _, ⟨i⟩⟩ := sound .lowest _ r position tail (by decide)
      (readyBehind.of_reaches Reaches.refl.advance) (on_advance behind) built clean
    obtain ⟨rest, rfl, beyond⟩ := ahead_split last (by rw [closes]; decide)
    obtain ⟨looser⟩ := d.loosen (l := .applied) (Level.applied_le_of_not_bound_lt (by
      rw [kind] at weak
      intro under
      apply weak
      rw [Precedence.lt_iff_rank] at under ⊢
      exact Nat.lt_succ_of_lt under))
    exact ⟨.applied, Precedence.level_rank_le bound, rest, beyond, loose_index rest,
      ⟨.index p.peek r.peek kind closes looser i⟩⟩

theorem sound_start {bound : Precedence} (ready : p.Ready) (on : p.On ts)
    (run : start operand bound p = (.ok e, q)) (clean : q.diagnostics = []) :
    q.Derives bound (.expr bound.level e) ts := by
  obtain ⟨rule, opens, left, r, opened, climbed⟩ := (start_eq_ok steady).1 run
  have readyLeft := ready.of_reaches ((steady_opening steady rule).reaches opened)
  rw [ready.table] at opens
  have invariant := onward_invariant (q := q) (e := e)
    (fun left p => p.diagnostics = [] →
      ∃ l : Level, bound.level.rank ≤ l.rank ∧ p.Derives l.bound (.expr l left) ts) steady
    (fun left longer p q step ready before more ruled run clean =>
      sound_continuation steady sound ready more ruled
        (before ((steady_continuation steady left step).clean (p := p.advance) run clean)) run
        clean)
    readyLeft
    (fun clean => by
      obtain ⟨l, tight, d⟩ := sound_opening steady sound ready on opens opened clean
      exact ⟨l, Nat.le_trans (Precedence.level_rank_le_unary bound) tight, d⟩)
    climbed
  obtain ⟨built, readyLast, stopped⟩ := invariant
  obtain ⟨l, tight, rest, last, _, ⟨d⟩⟩ := built clean
  obtain ⟨looser⟩ := d.loosen tight
  exact ⟨rest, last, loose_of_stopped readyLast last stopped, ⟨looser⟩⟩

end

/-- Operands of any nesting are sound. -/
theorem sound_within (levels : Nat) : (within levels).Sound := by
  induction levels with
  | zero =>
    intro bound p q e ts _ _ _ run
    exact absurd run fail_ne_ok
  | succ levels ih =>
    intro bound p q e ts _ ready on run clean
    obtain ⟨r, started, rfl⟩ := within_eq_ok.1 run
    have inner := sound_start (Expression.steady_within levels) ih
      (ready.at_depth (p.depth + 1)) on started clean
    exact inner

/-- A run without diagnostics derives its program. -/
theorem derivation_of_run {p : Parser} {ts : List Token} (ready : p.Ready) (on : p.On ts)
    (clean : p.run.diagnostics = []) : p.run.program.DerivesFrom ts := by
  cases whole : sequence p.operand endsProgram p.span p with
  | mk ss q =>
    simp only [run, parseProgram, Statement.program, whole] at clean ⊢
    have silent : q.diagnostics = [] := (Reaches.refl.note _).clean clean
    obtain ⟨rest, last, closed, ⟨d⟩⟩ := sound_sequence (Expression.steady_within p.levels)
      (sound_within p.levels) rfl p.span ready.rounds ready on whole silent
    cases rest with
    | nil => exact ⟨d⟩
    | cons t rest =>
      rw [last.1] at closed
      exact absurd (by simpa [endsProgram] using closed) last.2.1

end PrattFrontEnd
