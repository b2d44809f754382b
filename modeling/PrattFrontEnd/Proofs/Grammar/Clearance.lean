import PrattFrontEnd.Proofs.Grammar.Soundness
import PrattFrontEnd.Proofs.Parser.Interruption

/-!
A run that comes to its end in silence has worked out every integer it has passed. Operands that can
be given up pass an integer only where the rule for integers has read it, and all other tokens that
a rule passes are of other kinds. Main statement: `readable_of_read`.
-/
namespace PrattFrontEnd

open Rule Expression Statement PrattFrontEnd.Parser

/-- Integers have no more digits than can be worked out. -/
def Token.Readable (t : Token) : Prop := t.kind = .integer → t.text.toList.length ≤ Text.digitLimit

instance (t : Token) : Decidable t.Readable := inferInstanceAs (Decidable (_ → _))

theorem Token.readable_of_kind {t : Token} {k : Kind} (kind : t.kind = k) (other : k ≠ .integer) :
    t.Readable :=
  fun integer => absurd (kind.symm.trans integer) other

theorem Token.readable_of_value {t : Token} {value : Nat} (read : integerValue? t.text = some value)
    (sound : Expression.conversionFault? t.text = none) : t.Readable := by
  obtain ⟨numeral, fits, _⟩ := integerValue?_eq_some_iff.1 read
  have short := Text.significant_le numeral.2 (Nat.lt_of_le_of_lt fits (by decide))
  rw [conversionFault?_eq] at sound
  intro _
  by_contra long
  rw [if_pos ⟨⟨numeral.2, short⟩, Nat.lt_of_not_le long⟩] at sound
  cases sound

theorem Token.Readable.sound {t : Token} (readable : t.Readable) (kind : t.kind = .integer) :
    Expression.conversionFault? t.text = none := by
  rw [conversionFault?_eq, if_neg]
  intro ⟨_, long⟩
  exact absurd (readable kind) (Nat.not_le.2 long)

namespace Parser

variable {p q r : Parser}

/-- From the one parser on, the window has only passed tokens that can be worked out, and the other
parser stands behind them. -/
def Clears (p q : Parser) : Prop :=
  ∀ ts, p.On ts → ∃ front rest, ts = front ++ rest ∧ q.On rest ∧ ∀ t ∈ front, t.Readable

theorem Clears.refl (p : Parser) : p.Clears p := fun ts on => ⟨[], ts, rfl, on, nofun⟩

theorem Clears.trans (first : p.Clears q) (second : q.Clears r) : p.Clears r := by
  intro ts on
  obtain ⟨front, rest, rfl, there, readable⟩ := first ts on
  obtain ⟨mid, rest, rfl, beyond, readableToo⟩ := second rest there
  exact ⟨front ++ mid, rest, (List.append_assoc ..).symm, beyond,
    List.forall_mem_append.2 ⟨readable, readableToo⟩⟩

theorem clears_advance (readable : p.current.Readable) : p.Clears p.advance := by
  intro ts on
  have there : p.advance.On ts.tail := on_advance (ahead_of_on on)
  cases ts with
  | nil => exact ⟨[], [], rfl, there, nofun⟩
  | cons t ts =>
    rw [on.1] at readable
    exact ⟨[t], ts, rfl, there, List.forall_mem_singleton.2 readable⟩

theorem clears_of_kind {k : Kind} (kind : p.current.kind = k) (other : k ≠ .integer) :
    p.Clears p.advance :=
  clears_advance (Token.readable_of_kind kind other)

theorem clears_pastSemicolon (p : Parser) : p.advance.Clears p.pastSemicolon.advance := by
  unfold pastSemicolon
  split
  · rename_i semicolon
    exact clears_of_kind (p := p.advance) semicolon (by decide)
  · exact .refl _

end Parser

def Operand.Clears (operand : Operand) : Prop :=
  ∀ (bound : Precedence) (p q : Parser) (e : Expr), p.Ready → operand bound p = (.ok e, q) →
    q.diagnostics = [] → p.Clears q.advance

section

variable {operand : Operand} (steady : ∀ bound, (operand bound).Steady) (clears : operand.Clears)
variable {p q : Parser} {e : Expr} {es : List Expr} {ns : List Name} {b : Block} {s : Stmt}
variable {ss : List Stmt}

theorem clears_furtherParameters (ready : p.Ready) (run : furtherParameters p = (.ok ns, q)) :
    p.advance.Clears q.advance := by
  induction ns generalizing p with
  | nil =>
    rcases (furtherParameters_eq_ok ready.rounds).1 run with ⟨_, _, rfl⟩ | ⟨_, _, _, _, none⟩
    · exact .refl _
    · cases none
  | cons n ns ih =>
    rcases (furtherParameters_eq_ok ready.rounds).1 run with
      ⟨_, none, _⟩ | ⟨more, named, others, further, same⟩
    · cases none
    · cases same
      have comma := clears_of_kind (p := p.advance) more (by decide)
      have name := clears_of_kind (p := p.advance.advance) named (by decide)
      exact (comma.trans name).trans (ih (ready.of_reaches Reaches.refl.advance.advance) further)

theorem clears_parameters (ready : p.Ready) (run : parameters p = (.ok ns, q)) :
    p.advance.Clears q.advance := by
  rcases parameters_eq_ok.1 run with
    ⟨empty, rfl, rfl⟩ | ⟨named, others, r, further, closed, rfl, rfl⟩
  · exact clears_of_kind (p := p.advance) empty (by decide)
  · have name := clears_of_kind (p := p.advance) named (by decide)
    have others := clears_furtherParameters (ready.of_reaches Reaches.refl.advance) further
    exact (name.trans others).trans (clears_of_kind (p := r.advance) closed (by decide))

include steady clears

theorem clears_furtherItems (ready : p.Ready) (run : furtherItems operand p = (.ok es, q))
    (clean : q.diagnostics = []) : p.advance.Clears q.advance := by
  induction es generalizing p with
  | nil =>
    rcases (furtherItems_eq_ok steady ready.rounds).1 run with
      ⟨_, _, rfl⟩ | ⟨_, _, _, _, _, _, none⟩
    · exact .refl _
    · cases none
  | cons item es ih =>
    rcases (furtherItems_eq_ok steady ready.rounds).1 run with
      ⟨_, none, _⟩ | ⟨more, item, r, others, built, further, same⟩
    · cases none
    · cases same
      have readyItem := ready.of_reaches Reaches.refl.advance.advance
      have cleanItem := (steady_furtherItems steady).clean further clean
      have comma := clears_of_kind (p := p.advance) more (by decide)
      have first := clears .lowest _ r item readyItem built cleanItem
      exact (comma.trans first).trans
        (ih (readyItem.of_reaches ((steady .lowest).reaches built)) further)

theorem clears_items {closing : Kind} (other : closing ≠ .integer) (ready : p.Ready)
    (run : items operand closing p = (.ok es, q)) (clean : q.diagnostics = []) :
    p.advance.Clears q.advance := by
  rcases items_eq_ok.1 run with
    ⟨empty, rfl, rfl⟩ | ⟨_, item, r, others, s, built, further, closed, rfl, rfl⟩
  · exact clears_of_kind (p := p.advance) empty other
  · have readyItem := ready.of_reaches Reaches.refl.advance
    have cleanItem := (steady_furtherItems steady).clean further clean
    have first := clears .lowest _ r item readyItem built cleanItem
    have others := clears_furtherItems steady clears
      (readyItem.of_reaches ((steady .lowest).reaches built)) further clean
    exact (first.trans others).trans (clears_of_kind (p := s.advance) closed other)

omit steady in
theorem clears_value (ready : p.Ready) (run : operand .lowest p = (.ok e, q))
    (clean : q.pastSemicolon.diagnostics = []) : p.Clears q.pastSemicolon.advance := by
  have cleanValue : q.diagnostics = [] := by
    unfold pastSemicolon at clean
    split at clean <;> exact clean
  exact (clears .lowest p q e ready run cleanValue).trans q.clears_pastSemicolon

omit steady in
theorem clears_any (ready : p.Ready) (run : any operand p = (.ok s, q))
    (clean : q.diagnostics = []) : p.Clears q.advance := by
  unfold any at run
  split at run
  · rename_i kind
    obtain ⟨named, assigns, value, r, built, rfl, rfl⟩ := binding_eq_ok.1 run
    have word := clears_of_kind kind (by decide)
    have name := clears_of_kind (p := p.advance) named (by decide)
    have assign := clears_of_kind (p := p.advance.advance) assigns (by decide)
    exact ((word.trans name).trans assign).trans
      (clears_value clears (ready.of_reaches Reaches.refl.advance.advance.advance) built clean)
  · rename_i kind
    obtain ⟨value, r, built, rfl, rfl⟩ := result_eq_ok.1 run
    exact (clears_of_kind kind (by decide)).trans
      (clears_value clears (ready.of_reaches Reaches.refl.advance) built clean)
  · obtain ⟨value, r, built, rfl, rfl⟩ := expression_eq_ok.1 run
    exact clears_value clears ready built clean

theorem clears_sequence {closes : Kind → Bool} (ends : closes .eof = true) (rounds : Nat)
    (enough : p.horizon ≤ rounds) (ready : p.Ready)
    (run : sequence operand closes rounds p = (ss, q)) (clean : q.diagnostics = []) :
    p.Clears q ∧ closes q.current.kind = true := by
  induction rounds generalizing p ss with
  | zero =>
    cases run
    have ended := ended_of_horizon (Nat.le_zero.1 enough)
    exact ⟨.refl _, by rw [ended, ends]⟩
  | succ rounds ih =>
    by_cases goes : closes p.current.kind = true
    · rw [sequence_closed goes] at run
      cases run
      exact ⟨.refl _, goes⟩
    · have more : p.current.kind ≠ .eof := by
        intro ended
        rw [ended] at goes
        exact goes ends
      cases built : any operand p with
      | mk result r =>
        have reaches := (steady_any steady).reaches built
        cases result with
        | ok statement =>
          rw [sequence_built goes built] at run
          cases run
          have shorter := horizon_lt_of_statement more reaches
          have cleanFirst := (reaches_sequence steady closes rounds r.advance).clean clean
          have first := clears_any clears ready built cleanFirst
          obtain ⟨further, closed⟩ := ih (by omega) (ready.of_reaches reaches.advance) rfl
          exact ⟨first.trans further, closed⟩
        | error failure =>
          rw [sequence_dropped goes built] at run
          have later := r.reaches_synchronize.advance.trans
            (reaches_sequence steady closes rounds r.synchronize.advance)
          rw [run] at later
          have reported := ((steady_any steady) p).reports failure (by rw [built])
          rw [built] at reported
          exact absurd (later.clean clean) (diagnostics_ne_nil reported)

theorem clears_block (ready : p.Ready) (braced : p.current.kind = .leftBrace)
    (run : Statement.block operand p = (b, q)) (clean : q.diagnostics = []) :
    p.Clears q.advance := by
  cases inside : sequence operand endsBlock p.span p.advance with
  | mk ss r =>
    rw [Statement.block, inside] at run
    cases run
    have readyInside := ready.of_reaches Reaches.refl.advance
    obtain ⟨statements, closed⟩ := clears_sequence steady clears rfl p.span readyInside.rounds
      readyInside inside clean
    have readable : q.current.Readable := by
      intro integer
      rw [integer] at closed
      cases closed
    exact ((clears_of_kind braced (by decide)).trans statements).trans (clears_advance readable)

theorem clears_conditional (ready : p.Ready) (kind : p.current.kind = .ifWord)
    (run : conditional operand p = (.ok e, q)) (clean : q.diagnostics = []) :
    p.Clears q.advance := by
  obtain ⟨opens, condition, r, built, closes, braced, consequence, s, block, further⟩ :=
    conditional_eq_ok.1 run
  have readyCondition := ready.of_reaches Reaches.refl.advance.advance
  have readyBlock := readyCondition.of_reaches ((steady .lowest).reaches built).advance.advance
  have reaches := reaches_block steady r.advance.advance
  rw [block] at reaches
  -- Up to the end of the first block the two forms are the same.
  have front (cleanBlock : s.diagnostics = []) : p.Clears s.advance := by
    have word := clears_of_kind kind (by decide)
    have opened := clears_of_kind (p := p.advance) opens (by decide)
    have inner := clears .lowest _ r condition readyCondition built (reaches.clean cleanBlock)
    have closed := clears_of_kind (p := r.advance) closes (by decide)
    exact (((word.trans opened).trans inner).trans closed).trans
      (clears_block steady clears readyBlock braced block cleanBlock)
  rcases further with ⟨otherwise, bracedToo, alternative, second, rfl⟩ | ⟨_, rfl, rfl⟩
  · have reachesToo := reaches_block steady s.advance.advance
    rw [second] at reachesToo
    have word := clears_of_kind (p := s.advance) otherwise (by decide)
    have other := clears_block steady clears
      (readyBlock.of_reaches reaches.advance.advance) bracedToo second clean
    exact ((front (reachesToo.clean clean)).trans word).trans other
  · exact front clean

theorem clears_function (ready : p.Ready) (kind : p.current.kind = .functionWord)
    (run : function operand p = (.ok e, q)) (clean : q.diagnostics = []) :
    p.Clears q.advance := by
  obtain ⟨opens, names, r, listed, braced, body, block, rfl⟩ := function_eq_ok.1 run
  have readyNames := ready.of_reaches Reaches.refl.advance
  have word := clears_of_kind kind (by decide)
  have opened := clears_of_kind (p := p.advance) opens (by decide)
  have parameters := clears_parameters readyNames listed
  have body := clears_block steady clears
    (readyNames.of_reaches (steady_parameters.reaches listed).advance) braced block clean
  exact ((word.trans opened).trans parameters).trans body

theorem clears_opening {rule : Opening} (ready : p.Ready)
    (opens : RuleTable.standard.opening p.current.kind = some rule)
    (sound : p.conversionFault? = none) (run : opening operand rule p = (.ok e, q))
    (clean : q.diagnostics = []) : p.Clears q.advance := by
  have kinds := Kind.mem_kinds_of_opening opens
  cases rule with
  | name =>
    cases run
    exact clears_of_kind (List.mem_singleton.1 kinds) (by decide)
  | integer =>
    obtain ⟨value, read, rfl, rfl⟩ := integer_eq_ok.1 run
    rw [conversionFault?_of_integer ready (List.mem_singleton.1 kinds)] at sound
    exact clears_advance (Token.readable_of_value read sound)
  | string =>
    obtain ⟨rfl, rfl⟩ := string_eq_ok.1 run
    exact clears_of_kind (List.mem_singleton.1 kinds) (by decide)
  | boolean =>
    obtain ⟨rfl, rfl⟩ := boolean_eq_ok.1 run
    simp only [Opening.kinds, List.mem_cons, List.not_mem_nil, or_false] at kinds
    rcases kinds with kind | kind
    · exact clears_of_kind kind (by decide)
    · exact clears_of_kind kind (by decide)
  | unary =>
    obtain ⟨right, built, rfl⟩ := unary_eq_ok.1 run
    simp only [Opening.kinds, List.mem_cons, List.not_mem_nil, or_false] at kinds
    have behind := clears .unary _ q right (ready.of_reaches Reaches.refl.advance) built clean
    rcases kinds with kind | kind
    · exact (clears_of_kind kind (by decide)).trans behind
    · exact (clears_of_kind kind (by decide)).trans behind
  | group =>
    obtain ⟨r, built, closes, rfl⟩ := group_eq_ok.1 run
    have inner := clears .lowest _ r e (ready.of_reaches Reaches.refl.advance) built clean
    exact ((clears_of_kind (List.mem_singleton.1 kinds) (by decide)).trans inner).trans
      (clears_of_kind (p := r.advance) closes (by decide))
  | conditional =>
    exact clears_conditional steady clears ready (List.mem_singleton.1 kinds) run clean
  | function =>
    exact clears_function steady clears ready (List.mem_singleton.1 kinds) run clean
  | array =>
    obtain ⟨elements, listed, rfl⟩ := array_eq_ok.1 run
    exact (clears_of_kind (List.mem_singleton.1 kinds) (by decide)).trans
      (clears_items steady clears (by decide) ready listed clean)

theorem clears_continuation {left longer : Expr} {step : Continuation} (ready : p.Ready)
    (ruled : RuleTable.standard.continuation p.peek.kind = some step)
    (run : continuation operand left step p.advance = (.ok longer, q))
    (clean : q.diagnostics = []) : p.advance.Clears q.advance := by
  have readyBehind := ready.of_reaches Reaches.refl.advance
  have operator : p.advance.Clears p.advance.advance := by
    apply clears_advance
    intro integer
    have kind : p.peek.kind = .integer := integer
    rw [kind] at ruled
    cases ruled
  cases step with
  | binary =>
    obtain ⟨right, built, rfl⟩ := binary_eq_ok.1 run
    exact operator.trans
      (clears _ _ q right (readyBehind.of_reaches Reaches.refl.advance) built clean)
  | call =>
    obtain ⟨arguments, listed, rfl⟩ := call_eq_ok.1 run
    exact operator.trans (clears_items steady clears (by decide) readyBehind listed clean)
  | index =>
    obtain ⟨position, r, built, closes, rfl, rfl⟩ := index_eq_ok.1 run
    have inner := clears .lowest _ r position (readyBehind.of_reaches Reaches.refl.advance) built
      clean
    exact (operator.trans inner).trans (clears_of_kind (p := r.advance) closes (by decide))

theorem clears_start {bound : Precedence} (ready : p.Ready) (sound : p.conversionFault? = none)
    (run : start operand bound p = (.ok e, q)) (clean : q.diagnostics = []) :
    p.Clears q.advance := by
  obtain ⟨rule, opens, left, r, opened, climbed⟩ := (start_eq_ok steady).1 run
  have readyLeft := ready.of_reaches ((steady_opening steady rule).reaches opened)
  rw [ready.table] at opens
  have invariant := onward_invariant (q := q) (e := e)
    (fun _ q => q.diagnostics = [] → p.Clears q.advance) steady
    (fun left longer _ _ step ready before _ ruled run clean =>
      (before ((steady_continuation steady left step).clean (p := advance _) run clean)).trans
        (clears_continuation steady clears ready ruled run clean))
    readyLeft (clears_opening steady clears ready opens sound opened) climbed
  exact invariant.1 clean

end

namespace Expression

theorem readable_eq_ok {levels : Nat} {bound : Precedence} {p q : Parser} {e : Expr}
    (run : readable (levels + 1) bound p = (.ok e, q)) :
    p.conversionFault? = none ∧
      ∃ r, start (readable levels) bound { p with depth := p.depth + 1 } = (.ok e, r) ∧
        q = { r with depth := r.depth - 1 } := by
  cases fault : p.conversionFault? with
  | some reason =>
    rw [readable_given_up (by rw [fault]; rfl)] at run
    exact absurd run fail_ne_ok
  | none =>
    rw [readable_begun fault] at run
    obtain ⟨built, rfl⟩ := Prod.mk.inj run
    exact ⟨rfl, _, Prod.ext built rfl, rfl⟩

theorem clears_readable (levels : Nat) : (readable levels).Clears := by
  induction levels with
  | zero =>
    intro bound p q e _ run
    exact absurd run fail_ne_ok
  | succ levels ih =>
    intro bound p q e ready run clean
    obtain ⟨sound, r, started, rfl⟩ := readable_eq_ok run
    have inner := clears_start (steady_readable levels) ih (ready.at_depth (p.depth + 1)) sound
      started clean
    exact inner

end Expression

/-- A run in silence that does not break off has worked out every integer. -/
theorem readable_of_read {p : Parser} {ts : List Token} {parsed : Parsed} (ready : p.Ready)
    (on : p.On ts) (read : p.read = .ok parsed) (clean : parsed.diagnostics = []) :
    ∀ t ∈ ts, t.Readable := by
  cases whole : statements (readable p.levels) endsProgram p with
  | mk ss q =>
    rw [read_of_statements whole] at read
    rw [(Parsed.unlessBroken_eq_ok read).2] at clean
    obtain ⟨passed, closed⟩ := clears_sequence (steady_readable p.levels) (clears_readable p.levels)
      rfl p.span ready.rounds ready whole clean
    obtain ⟨front, rest, rfl, there, readable⟩ := passed ts on
    cases rest with
    | nil => simpa using readable
    | cons t rest =>
      rw [there.1] at closed
      exact absurd (by simpa [endsProgram] using closed) there.2.1

end PrattFrontEnd
