import PrattFrontEnd.Proofs.Parser.Success
import PrattFrontEnd.Proofs.Grammar.Derivation

/-!
What is derivable is parsed, without a word, into the tree of the derivation. Left operands are
parsed before it is known what they belong to, so the statement about expressions leaves the loop
over the operators open: parsing from the first token comes to the same as going on behind the
expression. Main statement: `Derivation.parses`.
-/
namespace PrattFrontEnd

def Level.bound : Level → Precedence
  | equality => .equality
  | comparison => .comparison
  | sum => .sum
  | product => .product
  | unary => .unary
  | applied | primary => .index

/-- The weakest binding met inside a stratum, which an enclosing bound must stay below. -/
def Level.floor : Level → Precedence
  | equality => .equality
  | comparison => .comparison
  | sum => .sum
  | product => .product
  | unary | applied | primary => .call

theorem Level.floor_lt_of_tighter {l m : Level} {bound : Precedence} (below : l.tighter? = some m)
    (under : bound < l.floor) : bound < m.floor := by
  rw [Precedence.lt_iff_rank] at under ⊢
  cases l <;> cases below <;> simp only [Level.floor, Precedence.rank] at under ⊢ <;> omega

theorem Level.bound_le_of_tighter {l m : Level} (below : l.tighter? = some m) :
    l.bound ≤ m.bound := by
  cases l <;> cases below <;> decide

theorem Level.bound_lt_floor {l m : Level} {k : Kind} (known : k.operatorLevel? = some l)
    (below : l.tighter? = some m) : l.bound < m.floor := by
  cases k <;> cases known <;> cases below <;> decide

theorem Level.floor_eq_bound {l : Level} {k : Kind} (known : k.operatorLevel? = some l) :
    l.floor = l.bound := by
  cases k <;> cases known <;> rfl

theorem Kind.rules_of_operatorLevel? {k : Kind} {l : Level} (known : k.operatorLevel? = some l) :
    RuleTable.standard.precedenceOf k = l.bound ∧
      RuleTable.standard.continuation k = some .binary ∧ k ≠ .semicolon ∧ k ≠ .elseWord := by
  cases k <;> cases known <;> decide

theorem Kind.lowest_lt_precedenceOf {k : Kind} :
    .lowest < RuleTable.standard.precedenceOf k ↔ k.prolongs = true := by
  cases k with
  | other name => simp [RuleTable.precedenceOf, RuleTable.standard, precedence?, prolongs,
      operatorLevel?, Precedence.lt_iff_rank]
  | _ => decide

theorem Precedence.not_index_lt (bound : Precedence) : ¬ .index < bound := by
  cases bound <;> decide

def Loose (bound : Precedence) (rest : List Token) : Prop :=
  ∀ t ∈ rest.head?, ¬ bound < RuleTable.standard.precedenceOf t.kind

theorem Loose.mono {weak strong : Precedence} {rest : List Token} (loose : Loose weak rest)
    (le : weak ≤ strong) : Loose strong rest := by
  intro t member tighter
  rw [Precedence.le_iff_rank] at le
  rw [Precedence.lt_iff_rank] at tighter
  exact loose t member (Precedence.lt_iff_rank.2 (by omega))

theorem loose_index (rest : List Token) : Loose .index rest :=
  fun _ _ => Precedence.not_index_lt _

def NoElse (rest : List Token) : Prop := ∀ t ∈ rest.head?, t.kind ≠ .elseWord

def Stops (kinds : List Kind) (rest : List Token) : Prop := ∀ t ∈ rest.head?, t.kind ∈ kinds

theorem noElse_cons {t : Token} {rest : List Token} (other : t.kind ≠ .elseWord) :
    NoElse (t :: rest) := by
  intro u member
  cases member
  exact other

theorem stops_cons {kinds : List Kind} {t : Token} {rest : List Token} (member : t.kind ∈ kinds) :
    Stops kinds (t :: rest) := by
  intro u front
  cases front
  exact member

theorem loose_of_prolongs {rest : List Token}
    (ends : ∀ t ∈ rest.head?, t.kind.prolongs = false) (bound : Precedence) : Loose bound rest := by
  have lowest : Loose .lowest rest := by
    intro t member tighter
    rw [Kind.lowest_lt_precedenceOf, ends t member] at tighter
    cases tighter
  exact lowest.mono (by cases bound <;> decide)

theorem Stops.loose {kinds : List Kind} {rest : List Token} (stops : Stops kinds rest)
    (harmless : ∀ k ∈ kinds, k.prolongs = false ∧ k ≠ .elseWord) (bound : Precedence) :
    Loose bound rest :=
  loose_of_prolongs (fun t member => (harmless _ (stops t member)).1) bound

theorem Stops.noElse {kinds : List Kind} {rest : List Token} (stops : Stops kinds rest)
    (harmless : ∀ k ∈ kinds, k.prolongs = false ∧ k ≠ .elseWord) : NoElse rest :=
  fun t member => (harmless _ (stops t member)).2

structure Parser.Quiet (p q : Parser) : Prop where
  moves : p.Reaches q
  log : q.log = p.log

namespace Parser.Quiet

theorem refl (p : Parser) : p.Quiet p := ⟨.refl, rfl⟩

theorem trans {p q r : Parser} (first : p.Quiet q) (second : q.Quiet r) : p.Quiet r :=
  ⟨first.moves.trans second.moves, second.log.trans first.log⟩

theorem advance {p q : Parser} (before : p.Quiet q) : p.Quiet q.advance :=
  ⟨before.moves.advance, before.log⟩

theorem outwards {p q : Parser} (inner : Quiet { p with depth := p.depth + 1 } q) :
    p.Quiet { q with depth := q.depth - 1 } :=
  ⟨inner.moves.outwards, inner.log⟩

end Parser.Quiet

open Expression Statement

/-- How a phrase is parsed that needs so many expressions inside one another, reaches from the one
list to the other and is followed by nothing that could belong to it. -/
def Phrase.Parses (phrase : Phrase) (need : Nat) (ts rest : List Token) : Prop :=
  match phrase with
  | .expr l e => ∀ (levels : Nat) (bound : Precedence) (p : Parser), need ≤ levels + 1 →
      bound < l.floor → Loose l.bound rest → NoElse rest → p.Ready → p.On ts →
      ∃ q, p.Quiet q ∧ q.Ahead rest ∧
        start (within levels) bound p = onward (within levels) bound e q
  | .items es => ∀ (levels : Nat) (close : Token) (after : List Token) (p : Parser),
      need ≤ levels → rest = close :: after → close.kind ∈ [.rightParen, .rightBracket] →
      p.Ready → p.Ahead ts →
      ∃ q, p.Quiet q ∧ q.Ahead after ∧ Expression.items (within levels) close.kind p = (.ok es, q)
  | .furtherItems es => ∀ (levels : Nat) (p : Parser), need ≤ levels →
      Stops [.rightParen, .rightBracket] rest → p.Ready → p.Ahead ts →
      ∃ q, p.Quiet q ∧ q.Ahead rest ∧ Expression.furtherItems (within levels) p = (.ok es, q)
  | .names ns => ∀ (close : Token) (after : List Token) (p : Parser), rest = close :: after →
      close.kind = .rightParen → p.Ready → p.Ahead ts →
      ∃ q, p.Quiet q ∧ q.Ahead after ∧ parameters p = (.ok ns, q)
  | .furtherNames ns => ∀ p : Parser, Stops [.rightParen] rest → p.Ready → p.Ahead ts →
      ∃ q, p.Quiet q ∧ q.Ahead rest ∧ furtherParameters p = (.ok ns, q)
  | .block b => ∀ (levels : Nat) (p : Parser), need ≤ levels → p.Ready → p.On ts →
      ∃ q, p.Quiet q ∧ q.Ahead rest ∧ Statement.block (within levels) p = (b, q)
  | .stmt s => ∀ (levels : Nat) (p : Parser), need ≤ levels → NoElse rest →
      (∀ t ∈ rest.head?, t.kind ≠ .semicolon) → p.Ready → p.On ts →
      ∃ q, p.Quiet q ∧ q.Ahead rest ∧ any (within levels) p = (.ok s, q)
  | .stmts ss => ∀ (levels : Nat) (closes : Kind → Bool) (p : Parser), need ≤ levels →
      closes .eof = true → (∀ k, closes k = true → k = .eof ∨ k = .rightBrace) →
      (∀ t ∈ rest.head?, closes t.kind = true) → p.Ready → p.On ts →
      ∃ q, p.Quiet q ∧ q.On rest ∧ statements (within levels) closes p = (ss, q)

def Derivation.Parsed {phrase : Phrase} {ts rest : List Token} (d : Derivation phrase ts rest) :
    Prop :=
  phrase.Parses d.need ts rest

section

variable {p q : Parser} {levels : Nat} {bound : Precedence} {l : Level} {e : Expr}
variable {ts rest : List Token}

theorem onward_loose {operand : Operand} (ready : p.Ready) (ahead : p.Ahead rest)
    (loose : Loose bound rest) : onward operand bound e p = (.ok e, p) := by
  have stopped : ¬ bound < RuleTable.standard.precedenceOf p.peek.kind :=
    Parser.peek_of_ahead (fun k => ¬ bound < RuleTable.standard.precedenceOf k) ahead
      (by cases bound <;> decide) loose
  apply onward_stop
  intro more
  simp only [continues, Parser.peekPrecedence, ready.table, Bool.and_eq_true,
    decide_eq_true_eq] at more
  exact stopped more.2

theorem onward_continues (step : Continuation) {t : Token} (ready : p.Ready)
    (ahead : p.Ahead (t :: rest)) (tighter : bound < RuleTable.standard.precedenceOf t.kind)
    (ruled : RuleTable.standard.continuation t.kind = some step) (more : t.kind ≠ .semicolon) :
    onward (within levels) bound e p =
      (continuation (within levels) e step >>= onward (within levels) bound) p.advance := by
  apply onward_step (Expression.steady_within levels)
  · rw [ready.table]
    rfl
  · exact ready.rounds
  · simp only [continues, Parser.peekPrecedence, ready.table, ahead.1, Bool.and_eq_true,
      decide_eq_true_eq]
    exact ⟨more, tighter⟩
  · rw [ready.table, ahead.1]
    exact ruled

theorem operand_of_parsed (levels : Nat) (bound : Precedence)
    {d : Derivation (.expr l e) ts rest} (parsed : d.Parsed) (enough : d.need ≤ levels) (under : bound < l.floor) (level : Loose l.bound rest)
    (loose : Loose bound rest) (noElse : NoElse rest) (ready : p.Ready) (on : p.On ts) :
    ∃ q, p.Quiet q ∧ q.Ahead rest ∧ within levels bound p = (.ok e, q) := by
  have positive := d.need_pos
  obtain ⟨inner, rfl⟩ : ∃ n, levels = n + 1 := ⟨levels - 1, by omega⟩
  obtain ⟨q, quiet, ahead, run⟩ := parsed inner bound { p with depth := p.depth + 1 } enough under
    level noElse (ready.at_depth _) on
  refine ⟨{ q with depth := q.depth - 1 }, quiet.outwards, ahead, within_eq_ok.2 ⟨q, ?_, rfl⟩⟩
  rw [run]
  exact onward_loose ((ready.at_depth _).of_reaches quiet.moves) ahead loose

theorem operand_of_stops (levels : Nat) {kinds : List Kind}
    {d : Derivation (.expr .equality e) ts rest} (parsed : d.Parsed) (enough : d.need ≤ levels) (stops : Stops kinds rest)
    (harmless : ∀ k ∈ kinds, k.prolongs = false ∧ k ≠ .elseWord) (ready : p.Ready)
    (on : p.On ts) :
    ∃ q, p.Quiet q ∧ q.Ahead rest ∧ within levels .lowest p = (.ok e, q) :=
  operand_of_parsed levels .lowest parsed enough (by decide) (stops.loose harmless _)
    (stops.loose harmless _) (stops.noElse harmless) ready on

theorem parsed_of_opening (rule : Opening) {t : Token} {d : Derivation (.expr l e) (t :: ts) rest}
    (ruled : RuleTable.standard.opening t.kind = some rule)
    (opens : ∀ (levels : Nat) (p : Parser), d.need ≤ levels + 1 → Loose l.bound rest →
      NoElse rest → p.Ready → p.On (t :: ts) →
      ∃ q, p.Quiet q ∧ q.Ahead rest ∧ opening (within levels) rule p = (.ok e, q)) :
    d.Parsed := by
  intro levels bound p enough _ loose noElse ready on
  obtain ⟨q, quiet, ahead, built⟩ := opens levels p enough loose noElse ready on
  refine ⟨q, quiet, ahead, ?_⟩
  have found : p.table.opening p.current.kind = some rule := by
    rw [ready.table, on.1]
    exact ruled
  unfold start
  rw [found]
  show (opening (within levels) rule >>= climb (within levels) bound p.span) p = _
  rw [Rule.bind_of_ok built, onward, quiet.moves.span]

end

end PrattFrontEnd
