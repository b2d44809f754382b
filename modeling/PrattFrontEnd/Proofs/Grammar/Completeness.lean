import PrattFrontEnd.Proofs.Grammar.Parses
import PrattFrontEnd.Proofs.Text.Numeral

/-!
What is derivable is parsed, without a word, into the tree of the derivation. There is a lemma for
every form of derivation; main statements: `Derivation.parses` and `run_of_derivation`.
-/
namespace PrattFrontEnd

open Expression Statement PrattFrontEnd.Parser

variable {l m : Level} {e : Expr} {es : List Expr} {ns : List Name} {b : Block} {ss : List Stmt}
variable {ts mid late rest : List Token}

namespace Derivation

theorem expr_starts {phrase : Phrase} (d : Derivation phrase ts rest)
    (expression : phrase = .expr l e) :
    ∃ t tail rule, ts = t :: tail ∧ RuleTable.standard.opening t.kind = some rule := by
  induction d generalizing l e with
  | tighter _ _ ih => exact ih rfl
  | binary _ _ _ _ _ ih _ => exact ih rfl
  | call _ _ _ _ _ _ ih _ => exact ih rfl
  | index _ _ _ _ _ _ ih _ => exact ih rfl
  | unary operator known _ _ =>
    rcases known with kind | kind
    · exact ⟨operator, _, .unary, rfl, by rw [kind]; rfl⟩
    · exact ⟨operator, _, .unary, rfl, by rw [kind]; rfl⟩
  | name t kind => exact ⟨t, _, .name, rfl, by rw [kind]; rfl⟩
  | integer t kind _ _ => exact ⟨t, _, .integer, rfl, by rw [kind]; rfl⟩
  | string t kind => exact ⟨t, _, .string, rfl, by rw [kind]; rfl⟩
  | yes t kind => exact ⟨t, _, .boolean, rfl, by rw [kind]; rfl⟩
  | no t kind => exact ⟨t, _, .boolean, rfl, by rw [kind]; rfl⟩
  | group opened _ opens _ _ _ => exact ⟨opened, _, .group, rfl, by rw [opens]; rfl⟩
  | array opened _ opens _ _ _ => exact ⟨opened, _, .array, rfl, by rw [opens]; rfl⟩
  | conditional word _ _ kind _ _ _ _ _ _ =>
    exact ⟨word, _, .conditional, rfl, by rw [kind]; rfl⟩
  | alternative word _ _ _ kind _ _ _ _ _ _ _ _ _ =>
    exact ⟨word, _, .conditional, rfl, by rw [kind]; rfl⟩
  | function word _ _ kind _ _ _ _ _ _ => exact ⟨word, _, .function, rfl, by rw [kind]; rfl⟩
  | _ => cases expression

theorem block_starts (d : Derivation (.block b) ts rest) :
    ∃ opened inside, opened.kind = .leftBrace ∧ ts = opened :: inside := by
  cases d with
  | closed opened closed opens _ _ => exact ⟨opened, _, opens, rfl⟩
  | unclosed opened opens _ => exact ⟨opened, _, opens, rfl⟩

theorem peek_block (d : Derivation (.block b) ts rest) {p : Parser} (ahead : p.Ahead ts) :
    p.peek.kind = .leftBrace := by
  obtain ⟨opened, inside, opens, rfl⟩ := d.block_starts
  rw [ahead.1, opens]

section expressions

variable {a c f : Expr}

theorem parsed_tighter {below : l.tighter? = some m} {inner : Derivation (.expr m e) ts rest}
    (parsed : inner.Parsed) : (tighter below inner).Parsed := by
  intro levels bound p enough under loose noElse ready on
  exact parsed levels bound p enough (Level.floor_lt_of_tighter below under)
    (loose.mono (Level.bound_le_of_tighter below)) noElse ready on

theorem parsed_binary {operator : Token} {known : operator.kind.operatorLevel? = some l}
    {below : l.tighter? = some m} {left : Derivation (.expr l a) ts (operator :: mid)}
    {right : Derivation (.expr m e) mid rest} (parsedLeft : left.Parsed)
    (parsedRight : right.Parsed) : (binary operator known below left right).Parsed := by
  intro levels bound p enough under loose noElse ready on
  obtain ⟨strength, ruled, more, notElse⟩ := Kind.rules_of_operatorLevel? known
  have needs : max left.need (1 + right.need) ≤ levels + 1 := enough
  have behind : Loose l.bound (operator :: mid) := by
    intro t member
    cases member
    rw [strength]
    exact Nat.lt_irrefl _
  obtain ⟨q, quiet, ahead, run⟩ :=
    parsedLeft levels bound p (by omega) under behind (noElse_cons notElse) ready on
  have tighter : bound < RuleTable.standard.precedenceOf operator.kind := by
    rw [strength, ← Level.floor_eq_bound known]
    exact under
  have readyBehind := ready.of_reaches quiet.moves
  obtain ⟨r, onward, beyond, built⟩ :=
    operand_of_parsed levels l.bound parsedRight (by omega) (Level.bound_lt_floor known below)
      (loose.mono (Level.bound_le_of_tighter below)) loose noElse
      (readyBehind.of_reaches Reaches.refl.advance.advance) (on_advance (ahead_step ahead))
  refine ⟨r, quiet.advance.advance.trans onward, beyond, ?_⟩
  rw [run, onward_continues .binary readyBehind ahead tighter ruled more]
  apply Rule.bind_of_ok
  have current : q.advance.current = operator := ahead.1
  have own : q.advance.currentPrecedence = l.bound := by
    rw [currentPrecedence, current, advance_table, readyBehind.table]
    exact strength
  refine binary_eq_ok.2 ⟨e, ?_, ?_⟩
  · rw [own]
    exact built
  · rw [current]

theorem parsed_unary {operator : Token} {known : operator.kind = .bang ∨ operator.kind = .minus}
    {operand : Derivation (.expr .unary e) ts rest} (parsed : operand.Parsed) :
    (unary operator known operand).Parsed := by
  have ruled : RuleTable.standard.opening operator.kind = some .unary := by
    rcases known with kind | kind <;> rw [kind] <;> rfl
  apply parsed_of_opening .unary ruled
  intro levels p enough loose noElse ready on
  have needs : 1 + operand.need ≤ levels + 1 := enough
  obtain ⟨q, quiet, ahead, built⟩ :=
    operand_of_parsed levels .unary parsed (by omega) (by decide) loose
      loose noElse (ready.of_reaches Reaches.refl.advance) (on_advance (ahead_of_on on))
  refine ⟨q, (Quiet.refl p).advance.trans quiet, ahead, unary_eq_ok.2 ⟨e, built, ?_⟩⟩
  rw [on.1]

theorem parsed_call {opened closed : Token} {opens : opened.kind = .leftParen}
    {closes : closed.kind = .rightParen} {callee : Derivation (.expr .applied f) ts (opened :: mid)}
    {arguments : Derivation (.items es) mid (closed :: rest)} (parsedCallee : callee.Parsed)
    (parsedArguments : arguments.Parsed) :
    (call opened closed opens closes callee arguments).Parsed := by
  intro levels bound p enough under loose noElse ready on
  have needs : max callee.need (1 + arguments.need) ≤ levels + 1 := enough
  have plain : NoElse (opened :: mid) := noElse_cons (by rw [opens]; decide)
  obtain ⟨q, quiet, ahead, run⟩ :=
    parsedCallee levels bound p (by omega) under (loose_index _) plain ready on
  have readyBehind := ready.of_reaches quiet.moves
  obtain ⟨r, onward, beyond, listed⟩ := parsedArguments levels closed rest q.advance (by omega) rfl
    (by rw [closes]; decide) (readyBehind.of_reaches Reaches.refl.advance) (ahead_step ahead)
  refine ⟨r, quiet.advance.trans onward, beyond, ?_⟩
  rw [run, onward_continues .call readyBehind ahead (by rw [opens]; exact under)
    (by rw [opens]; rfl) (by rw [opens]; decide)]
  apply Rule.bind_of_ok
  refine call_eq_ok.2 ⟨es, ?_, ?_⟩
  · rw [← closes]
    exact listed
  · rw [advance_current, ahead.1]

theorem parsed_index {opened closed : Token} {opens : opened.kind = .leftBracket}
    {closes : closed.kind = .rightBracket}
    {collection : Derivation (.expr .applied a) ts (opened :: mid)}
    {position : Derivation (.expr .equality e) mid (closed :: rest)}
    (parsedCollection : collection.Parsed) (parsedPosition : position.Parsed) :
    (index opened closed opens closes collection position).Parsed := by
  intro levels bound p enough under loose noElse ready on
  have needs : max collection.need (1 + position.need) ≤ levels + 1 := enough
  have plain : NoElse (opened :: mid) := noElse_cons (by rw [opens]; decide)
  have stops : Stops [.rightBracket] (closed :: rest) := stops_cons (by rw [closes]; decide)
  obtain ⟨q, quiet, ahead, run⟩ :=
    parsedCollection levels bound p (by omega) under (loose_index _) plain ready on
  have readyBehind := ready.of_reaches quiet.moves
  obtain ⟨r, onward, beyond, built⟩ :=
    operand_of_stops levels parsedPosition (by omega) stops (by decide)
      (readyBehind.of_reaches Reaches.refl.advance.advance) (on_advance (ahead_step ahead))
  have tighter : bound < RuleTable.standard.precedenceOf opened.kind := by
    rw [opens]
    rw [Precedence.lt_iff_rank] at under ⊢
    exact Nat.lt_succ_of_lt under
  refine ⟨r.advance, (quiet.advance.advance.trans onward).advance, ahead_step beyond, ?_⟩
  rw [run, onward_continues .index readyBehind ahead tighter (by rw [opens]; rfl)
    (by rw [opens]; decide)]
  apply Rule.bind_of_ok
  refine index_eq_ok.2 ⟨e, r, built, ?_, ?_, rfl⟩
  · rw [beyond.1, closes]
  · rw [advance_current, ahead.1]

theorem parsed_name {t : Token} {kind : t.kind = .identifier} :
    (name t kind : Derivation _ (t :: rest) rest).Parsed := by
  apply parsed_of_opening .name (by rw [kind]; rfl)
  intro levels p _ _ _ _ on
  refine ⟨p, .refl p, on.2.2, ?_⟩
  rw [← on.1]
  rfl

theorem parsed_integer {t : Token} {kind : t.kind = .integer}
    {digits : t.text.toList ≠ [] ∧ t.text.toList.all Char.isDigit}
    {bound : Text.digitsValue t.text.toList ≤ 2 ^ 63 - 1} :
    (integer t kind digits bound : Derivation _ (t :: rest) rest).Parsed := by
  apply parsed_of_opening .integer (by rw [kind]; rfl)
  intro levels p _ _ _ _ on
  refine ⟨p, .refl p, on.2.2, integer_eq_ok.2 ⟨Text.digitsValue t.text.toList, ?_, ?_, rfl⟩⟩
  · rw [on.1]
    exact integerValue?_eq_some_iff.2 ⟨digits, bound, rfl⟩
  · rw [on.1]

theorem parsed_string {t : Token} {kind : t.kind = .string} :
    (string t kind : Derivation _ (t :: rest) rest).Parsed := by
  apply parsed_of_opening .string (by rw [kind]; rfl)
  intro levels p _ _ _ _ on
  refine ⟨p, .refl p, on.2.2, string_eq_ok.2 ⟨?_, rfl⟩⟩
  rw [on.1]

theorem parsed_yes {t : Token} {kind : t.kind = .trueWord} :
    (yes t kind : Derivation _ (t :: rest) rest).Parsed := by
  apply parsed_of_opening .boolean (by rw [kind]; rfl)
  intro levels p _ _ _ _ on
  refine ⟨p, .refl p, on.2.2, boolean_eq_ok.2 ⟨?_, rfl⟩⟩
  rw [on.1, kind]
  rfl

theorem parsed_no {t : Token} {kind : t.kind = .falseWord} :
    (no t kind : Derivation _ (t :: rest) rest).Parsed := by
  apply parsed_of_opening .boolean (by rw [kind]; rfl)
  intro levels p _ _ _ _ on
  refine ⟨p, .refl p, on.2.2, boolean_eq_ok.2 ⟨?_, rfl⟩⟩
  rw [on.1, kind]
  rfl

theorem parsed_group {opened closed : Token} {opens : opened.kind = .leftParen}
    {closes : closed.kind = .rightParen} {inner : Derivation (.expr .equality e) ts (closed :: rest)}
    (parsed : inner.Parsed) : (group opened closed opens closes inner).Parsed := by
  apply parsed_of_opening .group (by rw [opens]; rfl)
  intro levels p enough _ _ ready on
  have needs : 1 + inner.need ≤ levels + 1 := enough
  have stops : Stops [.rightParen] (closed :: rest) := stops_cons (by rw [closes]; decide)
  obtain ⟨q, quiet, ahead, built⟩ :=
    operand_of_stops levels parsed (by omega) stops (by decide)
      (ready.of_reaches Reaches.refl.advance) (on_advance (ahead_of_on on))
  refine ⟨q.advance, ((Quiet.refl p).advance.trans quiet).advance, ahead_step ahead,
    group_eq_ok.2 ⟨q, built, ?_, rfl⟩⟩
  rw [ahead.1, closes]

theorem parsed_array {opened closed : Token} {opens : opened.kind = .leftBracket}
    {closes : closed.kind = .rightBracket} {elements : Derivation (.items es) ts (closed :: rest)}
    (parsed : elements.Parsed) : (array opened closed opens closes elements).Parsed := by
  apply parsed_of_opening .array (by rw [opens]; rfl)
  intro levels p enough _ _ ready on
  have needs : 1 + elements.need ≤ levels + 1 := enough
  obtain ⟨q, quiet, ahead, listed⟩ :=
    parsed levels closed rest p (by omega) rfl (by rw [closes]; decide) ready (ahead_of_on on)
  refine ⟨q, quiet, ahead, array_eq_ok.2 ⟨es, ?_, ?_⟩⟩
  · rw [← closes]
    exact listed
  · rw [on.1]

theorem parsed_conditional {word opened closed : Token} {kind : word.kind = .ifWord}
    {opens : opened.kind = .leftParen} {closes : closed.kind = .rightParen}
    {condition : Derivation (.expr .equality c) ts (closed :: mid)}
    {consequence : Derivation (.block b) mid rest} (parsedCondition : condition.Parsed)
    (parsedConsequence : consequence.Parsed) :
    (conditional word opened closed kind opens closes condition consequence).Parsed := by
  apply parsed_of_opening .conditional (by rw [kind]; rfl)
  intro levels p enough _ noElse ready on
  have needs : 1 + max condition.need consequence.need ≤ levels + 1 := enough
  have stops : Stops [.rightParen] (closed :: mid) := stops_cons (by rw [closes]; decide)
  have opening : p.Ahead (opened :: ts) := on.2.2
  obtain ⟨q, quiet, ahead, built⟩ :=
    operand_of_stops levels parsedCondition (by omega) stops (by decide)
      (ready.of_reaches Reaches.refl.advance.advance) (on_advance (ahead_step opening))
  have toBlock : p.Quiet q.advance.advance :=
    ((Quiet.refl p).advance.advance.trans quiet).advance.advance
  obtain ⟨r, onward, beyond, block⟩ := parsedConsequence levels q.advance.advance (by omega)
    (ready.of_reaches toBlock.moves) (on_advance (ahead_step ahead))
  refine ⟨r, toBlock.trans onward, beyond, conditional_eq_ok.2 ⟨?_, c, q, built, ?_, ?_, b, r,
    block, Or.inr ⟨?_, rfl, ?_⟩⟩⟩
  · rw [opening.1, opens]
  · rw [ahead.1, closes]
  · exact consequence.peek_block (ahead_step ahead)
  · exact peek_of_ahead ((· ≠ .elseWord)) beyond (by decide) noElse
  · rw [on.1]

theorem parsed_alternative {d : Block} {word opened closed other : Token}
    {kind : word.kind = .ifWord} {opens : opened.kind = .leftParen}
    {closes : closed.kind = .rightParen} {otherwise : other.kind = .elseWord}
    {condition : Derivation (.expr .equality c) ts (closed :: mid)}
    {consequence : Derivation (.block b) mid (other :: late)}
    {otherBlock : Derivation (.block d) late rest} (parsedCondition : condition.Parsed)
    (parsedConsequence : consequence.Parsed) (parsedOther : otherBlock.Parsed) :
    (alternative word opened closed other kind opens closes otherwise condition consequence
      otherBlock).Parsed := by
  apply parsed_of_opening .conditional (by rw [kind]; rfl)
  intro levels p enough _ _ ready on
  have needs : 1 + max condition.need (max consequence.need otherBlock.need) ≤ levels + 1 := enough
  have stops : Stops [.rightParen] (closed :: mid) := stops_cons (by rw [closes]; decide)
  have opening : p.Ahead (opened :: ts) := on.2.2
  obtain ⟨q, quiet, ahead, built⟩ :=
    operand_of_stops levels parsedCondition (by omega) stops (by decide)
      (ready.of_reaches Reaches.refl.advance.advance) (on_advance (ahead_step opening))
  have toBlock : p.Quiet q.advance.advance :=
    ((Quiet.refl p).advance.advance.trans quiet).advance.advance
  obtain ⟨r, onward, beyond, block⟩ := parsedConsequence levels q.advance.advance (by omega)
    (ready.of_reaches toBlock.moves) (on_advance (ahead_step ahead))
  have toOther : p.Quiet r.advance.advance := (toBlock.trans onward).advance.advance
  obtain ⟨s, further, last, second⟩ := parsedOther levels r.advance.advance (by omega)
    (ready.of_reaches toOther.moves) (on_advance (ahead_step beyond))
  refine ⟨s, toOther.trans further, last, conditional_eq_ok.2 ⟨?_, c, q, built, ?_, ?_, b, r,
    block, Or.inl ⟨?_, ?_, d, second, ?_⟩⟩⟩
  · rw [opening.1, opens]
  · rw [ahead.1, closes]
  · exact consequence.peek_block (ahead_step ahead)
  · rw [beyond.1, otherwise]
  · exact otherBlock.peek_block (ahead_step beyond)
  · rw [on.1]

theorem parsed_function {word opened closed : Token} {kind : word.kind = .functionWord}
    {opens : opened.kind = .leftParen} {closes : closed.kind = .rightParen}
    {parameters : Derivation (.names ns) ts (closed :: mid)}
    {body : Derivation (.block b) mid rest} (parsedParameters : parameters.Parsed)
    (parsedBody : body.Parsed) :
    (function word opened closed kind opens closes parameters body).Parsed := by
  apply parsed_of_opening .function (by rw [kind]; rfl)
  intro levels p enough _ _ ready on
  have needs : 1 + body.need ≤ levels + 1 := enough
  have opening : p.Ahead (opened :: ts) := on.2.2
  obtain ⟨q, quiet, ahead, listed⟩ := parsedParameters closed mid p.advance rfl closes
    (ready.of_reaches Reaches.refl.advance) (ahead_step opening)
  have toBlock : p.Quiet q.advance := ((Quiet.refl p).advance.trans quiet).advance
  obtain ⟨r, onward, beyond, block⟩ := parsedBody levels q.advance (by omega)
    (ready.of_reaches toBlock.moves) (on_advance ahead)
  refine ⟨r, toBlock.trans onward, beyond, function_eq_ok.2 ⟨?_, ns, q, listed, ?_, b, block, ?_⟩⟩
  · rw [opening.1, opens]
  · exact body.peek_block ahead
  · rw [on.1]

end expressions

section lists

theorem furtherItems_starts (d : Derivation (.furtherItems es) ts rest)
    (stops : Stops [.rightParen, .rightBracket] rest) :
    Stops [.comma, .rightParen, .rightBracket] ts := by
  cases d with
  | lastItem => exact fun t member => List.mem_cons_of_mem _ (stops t member)
  | nextItem comma kind _ _ => exact stops_cons (by rw [kind]; decide)

theorem parsed_noItems : (noItems : Derivation _ rest rest).Parsed := by
  rintro levels close after p _ rfl _ _ ahead
  exact ⟨p.advance, (Quiet.refl p).advance, ahead_step ahead,
    items_eq_ok.2 (Or.inl ⟨by rw [ahead.1], rfl, rfl⟩)⟩

theorem parsed_items {first : Derivation (.expr .equality e) ts mid}
    {further : Derivation (.furtherItems es) mid rest} (parsedFirst : first.Parsed)
    (parsedFurther : further.Parsed) : (items first further).Parsed := by
  rintro levels close after p enough rfl closing ready ahead
  have needs : max first.need further.need ≤ levels := enough
  obtain ⟨q, quiet, behind, built⟩ :=
    operand_of_stops levels parsedFirst (by omega)
      (further.furtherItems_starts (stops_cons closing)) (by decide)
      (ready.of_reaches Reaches.refl.advance) (on_advance ahead)
  have toFurther : p.Quiet q := (Quiet.refl p).advance.trans quiet
  obtain ⟨r, onward, beyond, listed⟩ := parsedFurther levels q (by omega) (stops_cons closing)
    (ready.of_reaches toFurther.moves) behind
  refine ⟨r.advance, (toFurther.trans onward).advance, ahead_step beyond,
    items_eq_ok.2 (Or.inr ⟨?_, e, q, es, r, built, listed, ?_, rfl, rfl⟩)⟩
  · obtain ⟨t, tail, rule, rfl, opens⟩ := first.expr_starts rfl
    rw [ahead.1]
    intro same
    rw [same] at opens
    simp only [List.mem_cons, List.not_mem_nil, or_false] at closing
    rcases closing with kind | kind <;> rw [kind] at opens <;> cases opens
  · rw [beyond.1]

theorem parsed_lastItem : (lastItem : Derivation _ rest rest).Parsed := by
  intro levels p _ stops _ ahead
  refine ⟨p, .refl p, ahead, furtherItems_stop ?_⟩
  apply peek_of_ahead ((· ≠ .comma)) ahead (by decide)
  intro t front same
  have member := stops t front
  rw [same] at member
  revert member
  decide

theorem parsed_nextItem {comma : Token} {kind : comma.kind = .comma}
    {next : Derivation (.expr .equality e) ts mid}
    {further : Derivation (.furtherItems es) mid rest} (parsedNext : next.Parsed)
    (parsedFurther : further.Parsed) : (nextItem comma kind next further).Parsed := by
  intro levels p enough stops ready ahead
  have needs : max next.need further.need ≤ levels := enough
  obtain ⟨q, quiet, behind, built⟩ :=
    operand_of_stops levels parsedNext (by omega) (further.furtherItems_starts stops)
      (by decide) (ready.of_reaches Reaches.refl.advance.advance) (on_advance (ahead_step ahead))
  have toFurther : p.Quiet q := (Quiet.refl p).advance.advance.trans quiet
  obtain ⟨r, onward, beyond, listed⟩ := parsedFurther levels q (by omega) stops
    (ready.of_reaches toFurther.moves) behind
  refine ⟨r, toFurther.trans onward, beyond,
    (furtherItems_eq_ok (Expression.steady_within levels) ready.rounds).2
      (Or.inr ⟨?_, e, q, es, built, listed, rfl⟩)⟩
  rw [ahead.1, kind]

theorem parsed_noNames : (noNames : Derivation _ rest rest).Parsed := by
  rintro close after p rfl closing _ ahead
  exact ⟨p.advance, (Quiet.refl p).advance, ahead_step ahead,
    parameters_eq_ok.2 (Or.inl ⟨by rw [ahead.1, closing], rfl, rfl⟩)⟩

theorem parsed_names {t : Token} {kind : t.kind = .identifier}
    {further : Derivation (.furtherNames ns) ts rest} (parsedFurther : further.Parsed) :
    (names t kind further).Parsed := by
  rintro close after p rfl closing ready ahead
  obtain ⟨q, quiet, beyond, listed⟩ := parsedFurther p.advance
    (stops_cons (by rw [closing]; decide)) (ready.of_reaches Reaches.refl.advance)
    (ahead_step ahead)
  refine ⟨q.advance, ((Quiet.refl p).advance.trans quiet).advance, ahead_step beyond,
    parameters_eq_ok.2 (Or.inr ⟨?_, ns, q, listed, ?_, ?_, rfl⟩)⟩
  · rw [ahead.1, kind]
  · rw [beyond.1, closing]
  · rw [ahead.1]

theorem parsed_lastName : (lastName : Derivation _ rest rest).Parsed := by
  intro p stops _ ahead
  refine ⟨p, .refl p, ahead, furtherParameters_stop ?_⟩
  apply peek_of_ahead ((· ≠ .comma)) ahead (by decide)
  intro t front same
  have member := stops t front
  rw [same] at member
  revert member
  decide

theorem parsed_nextName {comma t : Token} {separates : comma.kind = .comma}
    {kind : t.kind = .identifier} {further : Derivation (.furtherNames ns) ts rest}
    (parsedFurther : further.Parsed) : (nextName comma t separates kind further).Parsed := by
  intro p stops ready ahead
  have named : p.advance.Ahead (t :: ts) := ahead_step ahead
  obtain ⟨q, quiet, beyond, listed⟩ := parsedFurther p.advance.advance stops
    (ready.of_reaches Reaches.refl.advance.advance) (ahead_step named)
  refine ⟨q, (Quiet.refl p).advance.advance.trans quiet, beyond,
    (furtherParameters_eq_ok ready.rounds).2 (Or.inr ⟨?_, ?_, ns, listed, ?_⟩)⟩
  · rw [ahead.1, separates]
  · rw [named.1, kind]
  · rw [named.1]

end lists

section statements

variable {s : Stmt}

theorem value_of_parsed {d : Derivation (.expr .equality e) ts mid} (parsed : d.Parsed)
    (ended : Ended mid rest) {levels : Nat} (enough : d.need ≤ levels) (noElse : NoElse rest)
    (noSemicolon : ∀ t ∈ rest.head?, t.kind ≠ .semicolon) {p : Parser} (ready : p.Ready)
    (on : p.On ts) :
    ∃ q, within levels .lowest p = (.ok e, q) ∧ p.Quiet q.pastSemicolon ∧
      q.pastSemicolon.Ahead rest := by
  rcases ended with ⟨semicolon, kind, rfl⟩ | ⟨rfl, ends⟩
  · have stops : Stops [.semicolon] (semicolon :: rest) := stops_cons (by rw [kind]; decide)
    obtain ⟨q, quiet, ahead, built⟩ :=
      operand_of_stops levels parsed enough stops (by decide) ready on
    have past : q.pastSemicolon = q.advance := if_pos (by rw [ahead.1, kind])
    refine ⟨q, built, ?_⟩
    rw [past]
    exact ⟨quiet.advance, ahead_step ahead⟩
  · obtain ⟨q, quiet, ahead, built⟩ :=
      operand_of_parsed levels .lowest parsed enough (by decide) (loose_of_prolongs ends _)
        (loose_of_prolongs ends _) noElse ready on
    have past : q.pastSemicolon = q :=
      if_neg (peek_of_ahead ((· ≠ .semicolon)) ahead (by decide) noSemicolon)
    refine ⟨q, built, ?_⟩
    rw [past]
    exact ⟨quiet, ahead⟩

theorem parsed_binding {word t assign : Token} {kind : word.kind = .letWord}
    {named : t.kind = .identifier} {assigns : assign.kind = .assign}
    {value : Derivation (.expr .equality e) ts mid} {ended : Ended mid rest}
    (parsed : value.Parsed) : (binding word t assign kind named assigns value ended).Parsed := by
  intro levels p enough noElse noSemicolon ready on
  have name : p.Ahead (t :: assign :: ts) := on.2.2
  have sign : p.advance.Ahead (assign :: ts) := ahead_step name
  obtain ⟨q, built, quiet, ahead⟩ := value_of_parsed parsed ended enough noElse noSemicolon
    (ready.of_reaches Reaches.refl.advance.advance.advance) (on_advance (ahead_step sign))
  refine ⟨q.pastSemicolon, (Quiet.refl p).advance.advance.advance.trans quiet, ahead, ?_⟩
  have rule : any (within levels) p = Statement.binding (within levels) p := by
    rw [any, on.1, kind]
  rw [rule]
  refine binding_eq_ok.2 ⟨?_, ?_, e, q, built, ?_, rfl⟩
  · rw [name.1, named]
  · rw [sign.1, assigns]
  · rw [on.1, name.1]

theorem parsed_result {word : Token} {kind : word.kind = .returnWord}
    {value : Derivation (.expr .equality e) ts mid} {ended : Ended mid rest}
    (parsed : value.Parsed) : (result word kind value ended).Parsed := by
  intro levels p enough noElse noSemicolon ready on
  obtain ⟨q, built, quiet, ahead⟩ := value_of_parsed parsed ended enough noElse noSemicolon
    (ready.of_reaches Reaches.refl.advance) (on_advance on.2.2)
  refine ⟨q.pastSemicolon, (Quiet.refl p).advance.trans quiet, ahead, ?_⟩
  have rule : any (within levels) p = Statement.result (within levels) p := by
    rw [any, on.1, kind]
  rw [rule]
  refine result_eq_ok.2 ⟨e, q, built, ?_, rfl⟩
  rw [on.1]

theorem parsed_expression {first : Token} {value : Derivation (.expr .equality e) (first :: ts) mid}
    {ended : Ended mid rest} (parsed : value.Parsed) : (expression value ended).Parsed := by
  intro levels p enough noElse noSemicolon ready on
  obtain ⟨q, built, quiet, ahead⟩ :=
    value_of_parsed parsed ended enough noElse noSemicolon ready on
  refine ⟨q.pastSemicolon, quiet, ahead, ?_⟩
  obtain ⟨t, tail, rule, same, opens⟩ := value.expr_starts rfl
  cases same
  rw [any_of_opening rule (by rw [on.1, opens])]
  refine expression_eq_ok.2 ⟨e, q, built, ?_, rfl⟩
  rw [on.1]

theorem stmt_starts (d : Derivation (.stmt s) ts rest) :
    ∃ t tail, ts = t :: tail ∧ t.kind ≠ .semicolon ∧ t.kind ≠ .elseWord ∧ t.kind ≠ .eof ∧
      t.kind ≠ .rightBrace := by
  cases d with
  | binding word t assign kind _ _ _ _ => exact ⟨word, _, rfl, by rw [kind]; decide⟩
  | result word kind _ _ => exact ⟨word, _, rfl, by rw [kind]; decide⟩
  | expression value _ =>
    obtain ⟨t, tail, rule, same, opens⟩ := value.expr_starts rfl
    rw [same]
    refine ⟨t, tail, rfl, ?_⟩
    revert opens
    cases t.kind <;> simp [RuleTable.standard]

theorem goes_of_stmt (d : Derivation (.stmt s) ts mid) {closes : Kind → Bool}
    (only : ∀ k, closes k = true → k = .eof ∨ k = .rightBrace) {p : Parser} (on : p.On ts) :
    ¬ closes p.current.kind = true := by
  obtain ⟨t, tail, rfl, _, _, noEnd, noBrace⟩ := d.stmt_starts
  rw [on.1]
  intro closing
  exact (only _ closing).elim noEnd noBrace

theorem plain_of_stmts (d : Derivation (.stmts ss) mid rest) {closes : Kind → Bool}
    (only : ∀ k, closes k = true → k = .eof ∨ k = .rightBrace)
    (closed : ∀ t ∈ rest.head?, closes t.kind = true) :
    NoElse mid ∧ ∀ t ∈ mid.head?, t.kind ≠ .semicolon := by
  cases d with
  | noStmts =>
    constructor
    · intro t front
      rcases only _ (closed t front) with kind | kind <;> rw [kind] <;> decide
    · intro t front
      rcases only _ (closed t front) with kind | kind <;> rw [kind] <;> decide
  | stmts next _ =>
    obtain ⟨t, tail, rfl, noSemicolon, noElse, _⟩ := next.stmt_starts
    refine ⟨noElse_cons noElse, ?_⟩
    intro u front
    cases front
    exact noSemicolon

theorem parsed_noStmts : (noStmts : Derivation _ rest rest).Parsed := by
  intro levels closes p _ ends _ closed _ on
  exact ⟨p, .refl p, on, statements_closed
    (current_of_on (fun k => closes k = true) on ends closed)⟩

theorem parsed_stmts {first : Derivation (.stmt s) ts mid} {further : Derivation (.stmts ss) mid rest}
    (parsedFirst : first.Parsed) (parsedFurther : further.Parsed) :
    (stmts first further).Parsed := by
  intro levels closes p enough ends only closed ready on
  have needs : max first.need further.need ≤ levels := enough
  obtain ⟨noElse, noSemicolon⟩ := further.plain_of_stmts only closed
  obtain ⟨q, quiet, ahead, built⟩ :=
    parsedFirst levels p (by omega) noElse noSemicolon ready on
  obtain ⟨r, onward, beyond, listed⟩ := parsedFurther levels closes q.advance (by omega) ends only
    closed (ready.of_reaches quiet.moves.advance) (on_advance ahead)
  refine ⟨r, quiet.advance.trans onward, beyond, ?_⟩
  rw [statements_built (Expression.steady_within levels) ends ready.rounds
    (first.goes_of_stmt only on) built, listed]

theorem block_of_parsed {opened : Token} {d : Derivation (.stmts ss) ts rest} (parsed : d.Parsed)
    (closed : ∀ t ∈ rest.head?, t.kind = .rightBrace) {levels : Nat} (enough : d.need ≤ levels)
    {p : Parser} (ready : p.Ready) (on : p.On (opened :: ts)) :
    ∃ q, p.Quiet q ∧ q.On rest ∧ Statement.block (within levels) p = (.mk opened ss, q) := by
  have only : ∀ k, endsBlock k = true → k = .eof ∨ k = .rightBrace := by
    intro k ends
    simpa [endsBlock, or_comm] using ends
  obtain ⟨q, quiet, beyond, listed⟩ := parsed levels endsBlock p.advance enough rfl only
    (fun t front => by rw [closed t front]; rfl) (ready.of_reaches Reaches.refl.advance)
    (on_advance on.2.2)
  refine ⟨q, (Quiet.refl p).advance.trans quiet, beyond, ?_⟩
  have inside : sequence (within levels) endsBlock p.span p.advance = (ss, q) := listed
  rw [Statement.block, inside, on.1]

theorem parsed_closed {opened closed : Token} {opens : opened.kind = .leftBrace}
    {closes : closed.kind = .rightBrace} {inside : Derivation (.stmts ss) ts (closed :: rest)}
    (parsed : inside.Parsed) : (Derivation.closed opened closed opens closes inside).Parsed := by
  intro levels p enough ready on
  obtain ⟨q, quiet, beyond, block⟩ := block_of_parsed parsed
    (fun t front => by cases front; exact closes) enough ready on
  exact ⟨q, quiet, beyond.2.2, block⟩

theorem parsed_unclosed {opened : Token} {opens : opened.kind = .leftBrace}
    {inside : Derivation (.stmts ss) ts []} (parsed : inside.Parsed) :
    (unclosed opened opens inside).Parsed := by
  intro levels p enough ready on
  obtain ⟨q, quiet, beyond, block⟩ :=
    block_of_parsed parsed (fun t front => by cases front) enough ready on
  exact ⟨q, quiet, beyond.2, block⟩

end statements

/-- Whatever is derivable is parsed into the tree of its derivation. -/
theorem parses {phrase : Phrase} (d : Derivation phrase ts rest) : d.Parsed := by
  induction d with
  | tighter _ _ ih => exact parsed_tighter ih
  | binary _ _ _ _ _ left right => exact parsed_binary left right
  | unary _ _ _ operand => exact parsed_unary operand
  | call _ _ _ _ _ _ callee arguments => exact parsed_call callee arguments
  | index _ _ _ _ _ _ collection position => exact parsed_index collection position
  | name => exact parsed_name
  | integer => exact parsed_integer
  | string => exact parsed_string
  | yes => exact parsed_yes
  | no => exact parsed_no
  | group _ _ _ _ _ inner => exact parsed_group inner
  | array _ _ _ _ _ elements => exact parsed_array elements
  | conditional _ _ _ _ _ _ _ _ condition consequence =>
    exact parsed_conditional condition consequence
  | alternative _ _ _ _ _ _ _ _ _ _ _ condition consequence other =>
    exact parsed_alternative condition consequence other
  | function _ _ _ _ _ _ _ _ parameters body => exact parsed_function parameters body
  | noItems => exact parsed_noItems
  | items _ _ first further => exact parsed_items first further
  | lastItem => exact parsed_lastItem
  | nextItem _ _ _ _ next further => exact parsed_nextItem next further
  | noNames => exact parsed_noNames
  | names _ _ _ further => exact parsed_names further
  | lastName => exact parsed_lastName
  | nextName _ _ _ _ _ further => exact parsed_nextName further
  | closed _ _ _ _ _ inside => exact parsed_closed inside
  | unclosed _ _ _ inside => exact parsed_unclosed inside
  | binding _ _ _ _ _ _ _ _ value => exact parsed_binding value
  | result _ _ _ _ value => exact parsed_result value
  | expression _ _ value => exact parsed_expression value
  | noStmts => exact parsed_noStmts
  | stmts _ _ first further => exact parsed_stmts first further

end Derivation

/-- A parser that stands on a derivable program and may nest expressions deep enough. -/
theorem run_of_derivation {program : Program} {p : Parser}
    (d : Derivation (.stmts program.statements) ts []) (enough : d.need ≤ p.levels)
    (ready : p.Ready) (on : p.On ts) (fresh : p.log = []) :
    p.run.program = program ∧ p.run.diagnostics = [] := by
  obtain ⟨q, quiet, _, listed⟩ := d.parses p.levels endsProgram p enough rfl
    (fun k ends => Or.inl (by simpa [endsProgram] using ends)) (fun t front => by cases front)
    ready on
  have whole : sequence p.operand endsProgram p.span p = (program.statements, q) := listed
  have silent : q.log = [] := by rw [quiet.log, fresh]
  constructor
  · simp only [run, parseProgram, Statement.program, whole]
  · simp [run, parseProgram, Statement.program, whole, diagnostics, note, silent, Event.failure?]

end PrattFrontEnd
