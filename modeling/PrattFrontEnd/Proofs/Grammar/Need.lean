import PrattFrontEnd.Proofs.Grammar.Completeness

/-!
What is parsed without a word was allowed as many expressions inside one another as its derivation
needs. The parts of a phrase are parsed one behind the other; each of them shows that it was allowed
what it needs, and with that much it is parsed to its end, where the next one begins. Main statement:
`Derivation.fits`.
-/
namespace PrattFrontEnd

open Rule Expression Statement PrattFrontEnd.Parser

/-- A phrase that is parsed from the one list to the other without a diagnostic, before nothing that
could belong to it, has been allowed what it needs. -/
def Phrase.Fits (phrase : Phrase) (need : Nat) (ts rest : List Token) : Prop :=
  match phrase with
  | .expr l _ => ∀ (levels : Nat) (bound : Precedence) (p q : Parser) (e : Expr), bound < l.floor →
      Loose l.bound rest → NoElse rest → p.Ready → p.On ts →
      start (within levels) bound p = (.ok e, q) → q.diagnostics = [] → need ≤ levels + 1
  | .items _ => ∀ (levels : Nat) (close : Token) (after : List Token) (p q : Parser)
      (es : List Expr), rest = close :: after → close.kind ∈ [.rightParen, .rightBracket] →
      p.Ready → p.Ahead ts → Expression.items (within levels) close.kind p = (.ok es, q) →
      q.diagnostics = [] → need ≤ levels
  | .furtherItems _ => ∀ (levels : Nat) (p q : Parser) (es : List Expr),
      Stops [.rightParen, .rightBracket] rest → p.Ready → p.Ahead ts →
      Expression.furtherItems (within levels) p = (.ok es, q) → q.diagnostics = [] → need ≤ levels
  | .names _ | .furtherNames _ => True
  | .block _ => ∀ (levels : Nat) (p q : Parser) (b : Block), p.Ready → p.On ts →
      Statement.block (within levels) p = (b, q) → q.diagnostics = [] → need ≤ levels
  | .stmt _ => ∀ (levels : Nat) (p q : Parser) (s : Stmt), NoElse rest →
      (∀ t ∈ rest.head?, t.kind ≠ .semicolon) → p.Ready → p.On ts →
      any (within levels) p = (.ok s, q) → q.diagnostics = [] → need ≤ levels
  | .stmts _ => ∀ (levels : Nat) (closes : Kind → Bool) (p q : Parser) (ss : List Stmt),
      closes .eof = true → (∀ k, closes k = true → k = .eof ∨ k = .rightBrace) →
      (∀ t ∈ rest.head?, closes t.kind = true) → p.Ready → p.On ts →
      statements (within levels) closes p = (ss, q) → q.diagnostics = [] → need ≤ levels

namespace Derivation

def Fits {phrase : Phrase} {ts rest : List Token} (d : Derivation phrase ts rest) : Prop :=
  phrase.Fits d.need ts rest

variable {l m : Level} {a c e f : Expr} {es : List Expr} {ns : List Name} {b : Block} {s : Stmt}
variable {ss : List Stmt} {ts mid late rest : List Token} {p q : Parser} {levels : Nat}
variable {bound : Precedence}

section operands

theorem operand_fits {d : Derivation (.expr l e) ts rest} (fits : d.Fits) (under : bound < l.floor)
    (level : Loose l.bound rest) (loose : Loose bound rest) (noElse : NoElse rest)
    (ready : p.Ready) (on : p.On ts) {built : Expr} (run : within levels bound p = (.ok built, q))
    (clean : q.diagnostics = []) : d.need ≤ levels ∧ q.Ahead rest := by
  have enough : d.need ≤ levels := by
    cases levels with
    | zero => exact absurd run fail_ne_ok
    | succ levels =>
      obtain ⟨r, started, rfl⟩ := within_eq_ok.1 run
      exact fits levels bound { p with depth := p.depth + 1 } r built under level noElse
        (ready.at_depth _) on started clean
  obtain ⟨r, _, ahead, same⟩ :=
    operand_of_parsed levels bound d.parses enough under level loose noElse ready on
  rw [run] at same
  cases same
  exact ⟨enough, ahead⟩

theorem operand_fits_of_stops {kinds : List Kind} {d : Derivation (.expr .equality e) ts rest}
    (fits : d.Fits) (stops : Stops kinds rest)
    (harmless : ∀ k ∈ kinds, k.prolongs = false ∧ k ≠ .elseWord) (ready : p.Ready) (on : p.On ts)
    {built : Expr} (run : within levels .lowest p = (.ok built, q)) (clean : q.diagnostics = []) :
    d.need ≤ levels ∧ q.Ahead rest :=
  operand_fits fits (by decide) (stops.loose harmless _) (stops.loose harmless _)
    (stops.noElse harmless) ready on run clean

theorem left_fits {t : Token} {left : Derivation (.expr l a) ts (t :: mid)} (fits : left.Fits)
    (step : Continuation) (under : bound < l.floor) (behind : Loose l.bound (t :: mid))
    (plain : t.kind ≠ .elseWord) (more : t.kind ≠ .semicolon)
    (tighter : bound < RuleTable.standard.precedenceOf t.kind)
    (ruled : RuleTable.standard.continuation t.kind = some step) (ready : p.Ready) (on : p.On ts)
    (run : start (within levels) bound p = (.ok e, q)) (clean : q.diagnostics = []) :
    left.need ≤ levels + 1 ∧
      ∃ (r : Parser) (longer : Expr) (s : Parser), r.Ready ∧ r.Ahead (t :: mid) ∧
        continuation (within levels) a step r.advance = (.ok longer, s) ∧ s.diagnostics = [] := by
  have noElse : NoElse (t :: mid) := noElse_cons plain
  have enough := fits levels bound p q e under behind noElse ready on run clean
  obtain ⟨r, quiet, ahead, same⟩ := left.parses levels bound p enough under behind noElse ready on
  have readyBehind := ready.of_reaches quiet.moves
  rw [same, onward_continues step readyBehind ahead tighter ruled more] at run
  obtain ⟨longer, s, built, further⟩ := bind_eq_ok.1 run
  have cleanStep := (steady_onward (steady_within levels) bound longer).clean further clean
  exact ⟨enough, r, longer, s, readyBehind, ahead, built, cleanStep⟩

theorem fits_of_opening (rule : Opening) {t : Token} {d : Derivation (.expr l e) (t :: ts) rest}
    (ruled : RuleTable.standard.opening t.kind = some rule)
    (opens : ∀ (levels : Nat) (p q : Parser) (built : Expr), Loose l.bound rest → NoElse rest →
      p.Ready → p.On (t :: ts) → opening (within levels) rule p = (.ok built, q) →
      q.diagnostics = [] → d.need ≤ levels + 1) : d.Fits := by
  intro levels bound p q e _ loose noElse ready on run clean
  obtain ⟨other, found, built, r, opened, further⟩ := (start_eq_ok (steady_within levels)).1 run
  have same : other = rule := by
    rw [ready.table, on.1, ruled] at found
    exact (Option.some.inj found).symm
  subst same
  have cleanOpening := (steady_onward (steady_within levels) bound built).clean further clean
  exact opens levels p r built loose noElse ready on opened cleanOpening

end operands

section expressions

theorem fits_tighter {below : l.tighter? = some m} {inner : Derivation (.expr m e) ts rest}
    (fits : inner.Fits) : (tighter below inner).Fits := by
  intro levels bound p q e under loose noElse ready on run clean
  exact fits levels bound p q e (Level.floor_lt_of_tighter below under)
    (loose.mono (Level.bound_le_of_tighter below)) noElse ready on run clean

theorem fits_binary {operator : Token} {known : operator.kind.operatorLevel? = some l}
    {below : l.tighter? = some m} {left : Derivation (.expr l a) ts (operator :: mid)}
    {right : Derivation (.expr m c) mid rest} (fitsLeft : left.Fits) (fitsRight : right.Fits) :
    (binary operator known below left right).Fits := by
  intro levels bound p q e under loose noElse ready on run clean
  obtain ⟨strength, ruled, more, notElse⟩ := Kind.rules_of_operatorLevel? known
  have behind : Loose l.bound (operator :: mid) := by
    intro t member
    cases member
    rw [strength]
    exact Nat.lt_irrefl _
  have tighter : bound < RuleTable.standard.precedenceOf operator.kind := by
    rw [strength, ← Level.floor_eq_bound known]
    exact under
  obtain ⟨enough, r, longer, s, readyBehind, ahead, step, cleanStep⟩ :=
    left_fits fitsLeft .binary under behind notElse more tighter ruled ready on run clean
  obtain ⟨right', operand, _⟩ := binary_eq_ok.1 step
  have own : r.advance.currentPrecedence = l.bound := by
    rw [currentPrecedence, advance_current, ahead.1, advance_table, readyBehind.table]
    exact strength
  rw [own] at operand
  have enoughRight := (operand_fits fitsRight (Level.bound_lt_floor known below)
    (loose.mono (Level.bound_le_of_tighter below)) loose noElse
    (readyBehind.of_reaches Reaches.refl.advance.advance) (on_advance (ahead_step ahead)) operand
    cleanStep).1
  show max left.need (1 + right.need) ≤ levels + 1
  omega

theorem fits_unary {operator : Token} {known : operator.kind = .bang ∨ operator.kind = .minus}
    {operand : Derivation (.expr .unary e) ts rest} (fits : operand.Fits) :
    (unary operator known operand).Fits := by
  have ruled : RuleTable.standard.opening operator.kind = some .unary := by
    rcases known with kind | kind <;> rw [kind] <;> rfl
  apply fits_of_opening .unary ruled
  intro levels p q built loose noElse ready on run clean
  obtain ⟨right, inner, _⟩ := unary_eq_ok.1 run
  have enough := (operand_fits fits (by decide) loose loose noElse
    (ready.of_reaches Reaches.refl.advance) (on_advance (ahead_of_on on)) inner clean).1
  show 1 + operand.need ≤ levels + 1
  omega

theorem fits_call {opened closed : Token} {opens : opened.kind = .leftParen}
    {closes : closed.kind = .rightParen} {callee : Derivation (.expr .applied f) ts (opened :: mid)}
    {arguments : Derivation (.items es) mid (closed :: rest)} (fitsCallee : callee.Fits)
    (fitsArguments : arguments.Fits) : (call opened closed opens closes callee arguments).Fits := by
  intro levels bound p q e under loose noElse ready on run clean
  obtain ⟨enough, r, longer, s, readyBehind, ahead, step, cleanStep⟩ :=
    left_fits fitsCallee .call under (loose_index _) (by rw [opens]; decide) (by rw [opens]; decide)
      (by rw [opens]; exact under) (by rw [opens]; rfl) ready on run clean
  obtain ⟨listed, inside, _⟩ := call_eq_ok.1 step
  rw [← closes] at inside
  have enoughInside := fitsArguments levels closed rest r.advance s listed rfl
    (by rw [closes]; decide) (readyBehind.of_reaches Reaches.refl.advance) (ahead_step ahead) inside
    cleanStep
  show max callee.need (1 + arguments.need) ≤ levels + 1
  omega

theorem fits_index {opened closed : Token} {opens : opened.kind = .leftBracket}
    {closes : closed.kind = .rightBracket}
    {collection : Derivation (.expr .applied a) ts (opened :: mid)}
    {position : Derivation (.expr .equality e) mid (closed :: rest)}
    (fitsCollection : collection.Fits) (fitsPosition : position.Fits) :
    (index opened closed opens closes collection position).Fits := by
  intro levels bound p q e under loose noElse ready on run clean
  have stops : Stops [.rightBracket] (closed :: rest) := stops_cons (by rw [closes]; decide)
  have tighter : bound < RuleTable.standard.precedenceOf opened.kind := by
    rw [opens]
    rw [Precedence.lt_iff_rank] at under ⊢
    exact Nat.lt_succ_of_lt under
  obtain ⟨enough, r, longer, s, readyBehind, ahead, step, cleanStep⟩ :=
    left_fits fitsCollection .index under (loose_index _) (by rw [opens]; decide)
      (by rw [opens]; decide) tighter (by rw [opens]; rfl) ready on run clean
  obtain ⟨built, t, operand, _, _, rfl⟩ := index_eq_ok.1 step
  have enoughInside := (operand_fits_of_stops fitsPosition stops (by decide)
    (readyBehind.of_reaches Reaches.refl.advance.advance) (on_advance (ahead_step ahead)) operand
    cleanStep).1
  show max collection.need (1 + position.need) ≤ levels + 1
  omega

theorem fits_of_need_one {d : Derivation (.expr l e) ts rest} (one : d.need = 1) : d.Fits := by
  intro levels bound p q e _ _ _ _ _ _ _
  rw [one]
  exact Nat.le_add_left 1 levels

theorem fits_group {opened closed : Token} {opens : opened.kind = .leftParen}
    {closes : closed.kind = .rightParen} {inner : Derivation (.expr .equality e) ts (closed :: rest)}
    (fits : inner.Fits) : (group opened closed opens closes inner).Fits := by
  apply fits_of_opening .group (by rw [opens]; rfl)
  intro levels p q built _ _ ready on run clean
  have stops : Stops [.rightParen] (closed :: rest) := stops_cons (by rw [closes]; decide)
  obtain ⟨r, operand, _, rfl⟩ := group_eq_ok.1 run
  have enough := (operand_fits_of_stops fits stops (by decide)
    (ready.of_reaches Reaches.refl.advance) (on_advance (ahead_of_on on)) operand clean).1
  show 1 + inner.need ≤ levels + 1
  omega

theorem fits_array {opened closed : Token} {opens : opened.kind = .leftBracket}
    {closes : closed.kind = .rightBracket} {elements : Derivation (.items es) ts (closed :: rest)}
    (fits : elements.Fits) : (array opened closed opens closes elements).Fits := by
  apply fits_of_opening .array (by rw [opens]; rfl)
  intro levels p q built _ _ ready on run clean
  obtain ⟨listed, inside, _⟩ := array_eq_ok.1 run
  rw [← closes] at inside
  have enough := fits levels closed rest p q listed rfl (by rw [closes]; decide) ready
    (ahead_of_on on) inside clean
  show 1 + elements.need ≤ levels + 1
  omega

theorem block_fits {d : Derivation (.block b) ts rest} (fits : d.Fits) (ready : p.Ready)
    (on : p.On ts) {built : Block} (run : Statement.block (within levels) p = (built, q))
    (clean : q.diagnostics = []) : d.need ≤ levels ∧ q.Ahead rest := by
  have enough : d.need ≤ levels := fits levels p q built ready on run clean
  obtain ⟨r, _, ahead, same⟩ := d.parses levels p enough ready on
  rw [run] at same
  cases same
  exact ⟨enough, ahead⟩

theorem condition_fits {opened closed : Token} {d : Derivation (.expr .equality c) ts (closed :: mid)}
    (fits : d.Fits) (closes : closed.kind = .rightParen) (ready : p.Ready)
    (ahead : p.Ahead (opened :: ts)) {built : Expr}
    (run : within levels .lowest p.advance.advance = (.ok built, q)) (clean : q.diagnostics = []) :
    d.need ≤ levels ∧ q.advance.advance.Ready ∧ q.advance.advance.On mid := by
  have stops : Stops [.rightParen] (closed :: mid) := stops_cons (by rw [closes]; decide)
  have inside := ready.of_reaches Reaches.refl.advance.advance
  obtain ⟨enough, behind⟩ := operand_fits_of_stops fits stops (by decide) inside
    (on_advance (ahead_step ahead)) run clean
  have reaches := (steady_within levels .lowest).reaches run
  exact ⟨enough, inside.of_reaches reaches.advance.advance, on_advance (ahead_step behind)⟩

theorem parts_of_conditional (run : Expression.conditional (within levels) p = (.ok e, q))
    (clean : q.diagnostics = []) :
    ∃ (condition : Expr) (r : Parser) (consequence : Block) (s : Parser),
      within levels .lowest p.advance.advance = (.ok condition, r) ∧ r.diagnostics = [] ∧
        Statement.block (within levels) r.advance.advance = (consequence, s) ∧
        s.diagnostics = [] ∧ r.advance.advance.Reaches s ∧
        (s.peek.kind = .elseWord →
          ∃ alternative, Statement.block (within levels) s.advance.advance = (alternative, q)) := by
  obtain ⟨_, condition, r, operand, _, _, consequence, s, block, further⟩ :=
    conditional_eq_ok.1 run
  have reaches := reaches_block (steady_within levels) r.advance.advance
  rw [block] at reaches
  rcases further with ⟨_, _, alternative, second, _⟩ | ⟨missing, rfl, _⟩
  · have later := reaches_block (steady_within levels) s.advance.advance
    rw [second] at later
    have cleanBlock : s.diagnostics = [] := later.clean clean
    exact ⟨condition, r, consequence, s, operand, reaches.clean cleanBlock, block, cleanBlock,
      reaches, fun _ => ⟨alternative, second⟩⟩
  · exact ⟨condition, r, consequence, q, operand, reaches.clean clean, block, clean, reaches,
      fun found => absurd found missing⟩

theorem fits_conditional {word opened closed : Token} {kind : word.kind = .ifWord}
    {opens : opened.kind = .leftParen} {closes : closed.kind = .rightParen}
    {condition : Derivation (.expr .equality c) ts (closed :: mid)}
    {consequence : Derivation (.block b) mid rest} (fitsCondition : condition.Fits)
    (fitsConsequence : consequence.Fits) :
    (conditional word opened closed kind opens closes condition consequence).Fits := by
  apply fits_of_opening .conditional (by rw [kind]; rfl)
  intro levels p q built _ _ ready on run clean
  obtain ⟨_, r, _, s, operand, cleanCondition, block, cleanBlock, _, _⟩ :=
    parts_of_conditional run clean
  obtain ⟨enough, readyBlock, onBlock⟩ :=
    condition_fits fitsCondition closes ready on.2.2 operand cleanCondition
  have enoughBlock := (block_fits fitsConsequence readyBlock onBlock block cleanBlock).1
  show 1 + max condition.need consequence.need ≤ levels + 1
  omega

theorem fits_alternative {d : Block} {word opened closed other : Token}
    {kind : word.kind = .ifWord} {opens : opened.kind = .leftParen}
    {closes : closed.kind = .rightParen} {otherwise : other.kind = .elseWord}
    {condition : Derivation (.expr .equality c) ts (closed :: mid)}
    {consequence : Derivation (.block b) mid (other :: late)}
    {otherBlock : Derivation (.block d) late rest} (fitsCondition : condition.Fits)
    (fitsConsequence : consequence.Fits) (fitsOther : otherBlock.Fits) :
    (alternative word opened closed other kind opens closes otherwise condition consequence
      otherBlock).Fits := by
  apply fits_of_opening .conditional (by rw [kind]; rfl)
  intro levels p q built _ _ ready on run clean
  obtain ⟨_, r, _, s, operand, cleanCondition, block, cleanBlock, reaches, behindElse⟩ :=
    parts_of_conditional run clean
  obtain ⟨enough, readyBlock, onBlock⟩ :=
    condition_fits fitsCondition closes ready on.2.2 operand cleanCondition
  obtain ⟨enoughBlock, behind⟩ := block_fits fitsConsequence readyBlock onBlock block cleanBlock
  obtain ⟨_, second⟩ := behindElse (by rw [behind.1, otherwise])
  have enoughOther := (block_fits fitsOther (readyBlock.of_reaches reaches.advance.advance)
    (on_advance (ahead_step behind)) second clean).1
  show 1 + max condition.need (max consequence.need otherBlock.need) ≤ levels + 1
  omega

theorem fits_function {word opened closed : Token} {kind : word.kind = .functionWord}
    {opens : opened.kind = .leftParen} {closes : closed.kind = .rightParen}
    {parameters : Derivation (.names ns) ts (closed :: mid)}
    {body : Derivation (.block b) mid rest} (fits : body.Fits) :
    (function word opened closed kind opens closes parameters body).Fits := by
  apply fits_of_opening .function (by rw [kind]; rfl)
  intro levels p q built _ _ ready on run clean
  have opening : p.Ahead (opened :: ts) := on.2.2
  obtain ⟨_, _, r, listed, _, _, block, _⟩ := function_eq_ok.1 run
  obtain ⟨s, quiet, behind, same⟩ := parameters.parses closed mid p.advance rfl closes
    (ready.of_reaches Reaches.refl.advance) (ahead_step opening)
  rw [listed] at same
  cases same
  have readyBlock := (ready.of_reaches Reaches.refl.advance).of_reaches quiet.moves.advance
  have enough := (block_fits fits readyBlock (on_advance behind) block clean).1
  show 1 + body.need ≤ levels + 1
  omega

end expressions

section lists

theorem fits_noItems : (noItems : Derivation _ rest rest).Fits := by
  intro levels close after p q es _ _ _ _ _ _
  exact Nat.zero_le levels

theorem fits_items {first : Derivation (.expr .equality e) ts mid}
    {further : Derivation (.furtherItems es) mid rest} (fitsFirst : first.Fits)
    (fitsFurther : further.Fits) : (items first further).Fits := by
  intro levels close after p q built behind closing ready ahead run clean
  subst behind
  have starts : p.peek.kind ≠ close.kind := by
    obtain ⟨t, tail, rule, rfl, opens⟩ := first.expr_starts rfl
    rw [ahead.1]
    intro same
    rw [same] at opens
    simp only [List.mem_cons, List.not_mem_nil, or_false] at closing
    rcases closing with kind | kind <;> rw [kind] at opens <;> cases opens
  rcases items_eq_ok.1 run with
    ⟨empty, _⟩ | ⟨_, _, r, others, s, operand, listed, _, _, rfl⟩
  · exact absurd empty starts
  · have inside := ready.of_reaches Reaches.refl.advance
    have cleanFirst : r.diagnostics = [] :=
      (steady_furtherItems (steady_within levels)).clean listed clean
    obtain ⟨enough, next⟩ := operand_fits_of_stops fitsFirst
      (further.furtherItems_starts (stops_cons closing)) (by decide) inside (on_advance ahead)
      operand cleanFirst
    have enoughFurther := fitsFurther levels r s others (stops_cons closing)
      (inside.of_reaches ((steady_within levels .lowest).reaches operand)) next listed clean
    show max first.need further.need ≤ levels
    omega

theorem fits_lastItem : (lastItem : Derivation _ rest rest).Fits := by
  intro levels p q es _ _ _ _ _
  exact Nat.zero_le levels

theorem fits_nextItem {comma : Token} {kind : comma.kind = .comma}
    {next : Derivation (.expr .equality e) ts mid}
    {further : Derivation (.furtherItems es) mid rest} (fitsNext : next.Fits)
    (fitsFurther : further.Fits) : (nextItem comma kind next further).Fits := by
  intro levels p q built stops ready ahead run clean
  rcases (furtherItems_eq_ok (steady_within levels) ready.rounds).1 run with
    ⟨none, _⟩ | ⟨_, _, r, others, operand, listed, _⟩
  · exact absurd (by rw [ahead.1, kind]) none
  · have inside := ready.of_reaches Reaches.refl.advance.advance
    have cleanNext : r.diagnostics = [] :=
      (steady_furtherItems (steady_within levels)).clean listed clean
    obtain ⟨enough, behind⟩ := operand_fits_of_stops fitsNext (further.furtherItems_starts stops)
      (by decide) inside (on_advance (ahead_step ahead)) operand cleanNext
    have enoughFurther := fitsFurther levels r q others stops
      (inside.of_reaches ((steady_within levels .lowest).reaches operand)) behind listed clean
    show max next.need further.need ≤ levels
    omega

end lists

section statements

theorem value_fits {d : Derivation (.expr .equality e) ts mid} (fits : d.Fits)
    (ended : Ended mid rest) (noElse : NoElse rest) (ready : p.Ready) (on : p.On ts) {built : Expr}
    (run : within levels .lowest p = (.ok built, q))
    (clean : q.pastSemicolon.diagnostics = []) : d.need ≤ levels := by
  have cleanValue : q.diagnostics = [] := by
    unfold pastSemicolon at clean
    split at clean
    · exact clean
    · exact clean
  rcases ended with ⟨semicolon, kind, rfl⟩ | ⟨rfl, ends⟩
  · have stops : Stops [.semicolon] (semicolon :: rest) := stops_cons (by rw [kind]; decide)
    exact (operand_fits_of_stops fits stops (by decide) ready on run cleanValue).1
  · exact (operand_fits fits (by decide) (loose_of_prolongs ends _) (loose_of_prolongs ends _)
      noElse ready on run cleanValue).1

theorem fits_binding {word t assign : Token} {kind : word.kind = .letWord}
    {named : t.kind = .identifier} {assigns : assign.kind = .assign}
    {value : Derivation (.expr .equality e) ts mid} {ended : Ended mid rest} (fits : value.Fits) :
    (binding word t assign kind named assigns value ended).Fits := by
  intro levels p q s noElse _ ready on run clean
  have rule : any (within levels) p = Statement.binding (within levels) p := by
    rw [any, on.1, kind]
  rw [rule] at run
  obtain ⟨_, _, _, r, operand, _, rfl⟩ := binding_eq_ok.1 run
  have name : p.Ahead (t :: assign :: ts) := on.2.2
  exact value_fits fits ended noElse (ready.of_reaches Reaches.refl.advance.advance.advance)
    (on_advance (ahead_step (ahead_step name))) operand clean

theorem fits_result {word : Token} {kind : word.kind = .returnWord}
    {value : Derivation (.expr .equality e) ts mid} {ended : Ended mid rest} (fits : value.Fits) :
    (result word kind value ended).Fits := by
  intro levels p q s noElse _ ready on run clean
  have rule : any (within levels) p = Statement.result (within levels) p := by
    rw [any, on.1, kind]
  rw [rule] at run
  obtain ⟨_, r, operand, _, rfl⟩ := result_eq_ok.1 run
  exact value_fits fits ended noElse (ready.of_reaches Reaches.refl.advance) (on_advance on.2.2)
    operand clean

theorem fits_expression {first : Token} {value : Derivation (.expr .equality e) (first :: ts) mid}
    {ended : Ended mid rest} (fits : value.Fits) : (expression value ended).Fits := by
  intro levels p q s noElse _ ready on run clean
  obtain ⟨t, tail, rule, same, opens⟩ := value.expr_starts rfl
  cases same
  rw [any_of_opening rule (by rw [on.1, opens])] at run
  obtain ⟨_, r, operand, _, rfl⟩ := expression_eq_ok.1 run
  exact value_fits fits ended noElse ready on operand clean

theorem fits_noStmts : (noStmts : Derivation _ rest rest).Fits := by
  intro levels closes p q ss _ _ _ _ _ _ _
  exact Nat.zero_le levels

theorem any_ok_of_clean {operand : Operand} (steady : ∀ bound, (operand bound).Steady)
    {closes : Kind → Bool} (ends : closes .eof = true) (ready : p.Ready)
    (goes : ¬ closes p.current.kind = true)
    (clean : (statements operand closes p).2.diagnostics = []) :
    ∃ s q, any operand p = (.ok s, q) := by
  cases run : any operand p with
  | mk result q =>
    cases result with
    | ok s => exact ⟨s, q, rfl⟩
    | error failure =>
      have reported := (steady_any steady p).reports failure (by rw [run])
      rw [run] at reported
      rw [statements_dropped steady ends ready.rounds goes run] at clean
      have later := reaches_sequence steady closes q.synchronize.advance.span q.synchronize.advance
      have failed : q.diagnostics = [] :=
        q.reaches_synchronize.clean (Reaches.refl.advance.clean (later.clean clean))
      exact absurd failed (diagnostics_ne_nil reported)

theorem fits_stmts {first : Derivation (.stmt s) ts mid} {further : Derivation (.stmts ss) mid rest}
    (fitsFirst : first.Fits) (fitsFurther : further.Fits) : (stmts first further).Fits := by
  intro levels closes p q built ends only closed ready on run clean
  have steady := steady_within levels
  have goes := first.goes_of_stmt only on
  obtain ⟨noElse, noSemicolon⟩ := further.plain_of_stmts only closed
  obtain ⟨s, r, parsed⟩ := any_ok_of_clean steady ends ready goes (by rw [run]; exact clean)
  rw [statements_built steady ends ready.rounds goes parsed] at run
  have last : (statements (within levels) closes r.advance).2 = q := congrArg Prod.snd run
  have rest : statements (within levels) closes r.advance =
      ((statements (within levels) closes r.advance).1, q) :=
    Prod.ext rfl last
  have later := reaches_sequence steady closes r.advance.span r.advance
  have cleanRest : (statements (within levels) closes r.advance).2.diagnostics = [] := by
    rw [rest]
    exact clean
  have cleanFirst : r.diagnostics = [] := Reaches.refl.advance.clean (later.clean cleanRest)
  have enough : first.need ≤ levels := fitsFirst levels p r s noElse noSemicolon ready on parsed
    cleanFirst
  obtain ⟨r', quiet, ahead, same⟩ := first.parses levels p enough noElse noSemicolon ready on
  rw [parsed] at same
  cases same
  have enoughFurther := fitsFurther levels closes r.advance q _ ends only closed
    (ready.of_reaches quiet.moves.advance) (on_advance ahead) rest clean
  show max first.need further.need ≤ levels
  omega

theorem fits_of_inside {opened : Token} {inside : Derivation (.stmts ss) ts rest}
    (fits : inside.Fits) (closed : ∀ t ∈ rest.head?, t.kind = .rightBrace) (ready : p.Ready)
    (on : p.On (opened :: ts)) {built : Block}
    (run : Statement.block (within levels) p = (built, q)) (clean : q.diagnostics = []) :
    inside.need ≤ levels := by
  have only : ∀ k, endsBlock k = true → k = .eof ∨ k = .rightBrace := by
    intro k ends
    simpa [endsBlock, or_comm] using ends
  have last : (statements (within levels) endsBlock p.advance).2 = q := congrArg Prod.snd run
  have listed : statements (within levels) endsBlock p.advance =
      ((statements (within levels) endsBlock p.advance).1, q) :=
    Prod.ext rfl last
  exact fits levels endsBlock p.advance q _ rfl only (fun t front => by rw [closed t front]; rfl)
    (ready.of_reaches Reaches.refl.advance) (on_advance on.2.2) listed clean

theorem fits_closed {opened closed : Token} {opens : opened.kind = .leftBrace}
    {closes : closed.kind = .rightBrace} {inside : Derivation (.stmts ss) ts (closed :: rest)}
    (fits : inside.Fits) : (Derivation.closed opened closed opens closes inside).Fits := by
  intro levels p q b ready on run clean
  have brace : ∀ t ∈ (closed :: rest).head?, t.kind = .rightBrace := by
    intro t front
    cases front
    exact closes
  exact fits_of_inside fits brace ready on run clean

theorem fits_unclosed {opened : Token} {opens : opened.kind = .leftBrace}
    {inside : Derivation (.stmts ss) ts []} (fits : inside.Fits) :
    (unclosed opened opens inside).Fits := by
  intro levels p q b ready on run clean
  have none : ∀ t ∈ ([] : List Token).head?, t.kind = .rightBrace := by
    intro t front
    cases front
  exact fits_of_inside fits none ready on run clean

end statements

/-- No phrase is parsed in silence with less than it needs. -/
theorem fits {phrase : Phrase} (d : Derivation phrase ts rest) : d.Fits := by
  induction d with
  | tighter _ _ ih => exact fits_tighter ih
  | binary _ _ _ _ _ left right => exact fits_binary left right
  | unary _ _ _ operand => exact fits_unary operand
  | call _ _ _ _ _ _ callee arguments => exact fits_call callee arguments
  | index _ _ _ _ _ _ collection position => exact fits_index collection position
  | name => exact fits_of_need_one rfl
  | integer => exact fits_of_need_one rfl
  | string => exact fits_of_need_one rfl
  | yes => exact fits_of_need_one rfl
  | no => exact fits_of_need_one rfl
  | group _ _ _ _ _ inner => exact fits_group inner
  | array _ _ _ _ _ elements => exact fits_array elements
  | conditional _ _ _ _ _ _ _ _ condition consequence =>
    exact fits_conditional condition consequence
  | alternative _ _ _ _ _ _ _ _ _ _ _ condition consequence other =>
    exact fits_alternative condition consequence other
  | function _ _ _ _ _ _ _ _ _ body => exact fits_function body
  | noItems => exact fits_noItems
  | items _ _ first further => exact fits_items first further
  | lastItem => exact fits_lastItem
  | nextItem _ _ _ _ next further => exact fits_nextItem next further
  | noNames => trivial
  | names _ _ _ _ => trivial
  | lastName => trivial
  | nextName _ _ _ _ _ _ => trivial
  | closed _ _ _ _ _ inside => exact fits_closed inside
  | unclosed _ _ _ inside => exact fits_unclosed inside
  | binding _ _ _ _ _ _ _ _ value => exact fits_binding value
  | result _ _ _ _ value => exact fits_result value
  | expression _ _ value => exact fits_expression value
  | noStmts => exact fits_noStmts
  | stmts _ _ first further => exact fits_stmts first further

end Derivation

theorem need_le_of_clean {program : Program} {tokens : List Token} {p : Parser}
    (d : Derivation (.stmts program.statements) tokens []) (ready : p.Ready) (on : p.On tokens)
    (clean : p.run.diagnostics = []) : d.need ≤ p.levels := by
  cases whole : statements p.operand endsProgram p with
  | mk built q =>
    rw [run_of_statements whole] at clean
    exact d.fits p.levels endsProgram p q built rfl (fun k ends => Or.inl (of_decide_eq_true ends))
      (fun t front => by cases front) ready on whole clean

end PrattFrontEnd
