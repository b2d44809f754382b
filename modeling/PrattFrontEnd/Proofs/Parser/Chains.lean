import PrattFrontEnd.Parser.Bench
import PrattFrontEnd.Proofs.Parser.Success
import PrattFrontEnd.Proofs.Parser.Upcoming
import PrattFrontEnd.Proofs.Syntax.Gradation
import PrattFrontEnd.Proofs.Text.Numeral

/-!
Operators of any strengths. A caller may register any kinds of token as binary operators, each at a
strength of its own; a chain of these is parsed to the one tree in which the strengths are in order.
The climbing loop carries this: it stands in front of a link that binds no tighter than any operator
it has taken. Main statement: `operators_group_by_strength`.
-/
namespace PrattFrontEnd

open Rule Expression Statement PrattFrontEnd.Parser

def Bench.registering (b : Bench) (kinds : List Kind) (strength : Kind → Precedence) : Bench :=
  kinds.foldl (fun b k => (b.serve (.register k .binary (strength k))).2) b

theorem Bench.registering_eq (b : Bench) (kinds : List Kind) (strength : Kind → Precedence) :
    ∃ table : RuleTable, b.registering kinds strength = b.withTable table ∧
      table.opening = b.parser.table.opening ∧
      (∀ k, table.continuation k =
        if k ∈ kinds then some .binary else b.parser.table.continuation k) ∧
      ∀ k, table.precedenceOf k =
        if k ∈ kinds then strength k else b.parser.table.precedenceOf k := by
  induction kinds generalizing b with
  | nil => exact ⟨b.parser.table, rfl, rfl, fun _ => rfl, fun _ => rfl⟩
  | cons kind kinds ih =>
    obtain ⟨table, same, opening, binary, binds⟩ :=
      ih (b.withTable (b.parser.table.register kind .binary (strength kind)))
    refine ⟨table, same, opening, fun k => ?_, fun k => ?_⟩
    · rw [binary k]
      show (if k ∈ kinds then _ else if k = kind then some Continuation.binary else _) = _
      by_cases among : k ∈ kinds <;> by_cases here : k = kind <;> simp [among, here]
    · rw [binds k]
      show (if k ∈ kinds then _ else (if k = kind then some (strength kind) else _).getD _) = _
      by_cases among : k ∈ kinds <;> by_cases here : k = kind <;> simp [among, here]
      rfl

namespace Parser

/-- A parser with the opening rules of the language, a binary rule of its strength for each of some
kinds, and rounds enough for every loop. -/
structure Grades (kinds : List Kind) (strength : Kind → Precedence) (p : Parser) : Prop where
  opening : p.table.opening = RuleTable.standard.opening
  binary : ∀ k ∈ kinds, p.table.continuation k = some .binary
  strength : ∀ k ∈ kinds, p.table.precedenceOf k = strength k
  silent : p.table.precedenceOf .eof = .lowest
  rounds : p.horizon ≤ p.span

def Awaits (p : Parser) (links : List Link) (behind : Stream' Token) : Prop :=
  p.upcoming.tail = links.flatMap Link.tokens ++ₛ behind

variable {kinds : List Kind} {strength : Kind → Precedence} {behind : Stream' Token} {p q : Parser}
  {l : Link} {links : List Link}

theorem Grades.of_reaches (grades : p.Grades kinds strength) (reaches : p.Reaches q) :
    q.Grades kinds strength := by
  obtain ⟨opening, binary, binds, silent, rounds⟩ := grades
  rw [← reaches.table] at opening binary binds silent
  rw [← reaches.span] at rounds
  exact ⟨opening, binary, binds, silent, Nat.le_trans reaches.horizon_le rounds⟩

theorem Awaits.peek_of_nil (awaits : p.Awaits [] behind) : p.peek = behind.head :=
  congrArg Stream'.head awaits

theorem Awaits.peek (awaits : p.Awaits (l :: links) behind) : p.peek = l.operator :=
  congrArg Stream'.head awaits

theorem Awaits.operand (awaits : p.Awaits (l :: links) behind) :
    p.advance.advance.current = l.operand :=
  congrArg (fun s => s.tail.head) awaits

theorem Awaits.further (awaits : p.Awaits (l :: links) behind) :
    p.advance.advance.Awaits links behind := by
  unfold Awaits at awaits ⊢
  rw [upcoming_advance, upcoming_advance, awaits]
  rfl

end Parser

/-- How the links of a chain are divided by an operand under a bound: it takes them as long as their
operators bind tighter. -/
structure Divided (strength : Kind → Precedence) (bound : Precedence)
    (links taken rest : List Link) : Prop where
  whole : links = taken ++ rest
  tighter : ∀ l ∈ taken, bound < strength l.operator.kind
  stops : ∀ l ∈ rest.head?, ¬ bound < strength l.operator.kind

/-- Behind a first token and the links done before, some of the links ahead are taken under a bound; the
tree of all of them is graded, the parser stands in front of the rest, and nothing is logged. -/
def Grows (strength : Kind → Precedence) (behind : Stream' Token) (bound : Precedence)
    (first : Token) (done links : List Link) (p : Parser)
    (outcome : Except Failure Expr × Parser) : Prop :=
  ∃ e q taken rest, outcome = (.ok e, q) ∧ Divided strength bound links taken rest ∧
    Graded strength e first (done ++ taken) ∧ q.Awaits rest behind ∧ q.log = p.log

def Operand.Takes (operand : Operand) (kinds : List Kind) (strength : Kind → Precedence)
    (behind : Stream' Token) (bound : Precedence) : Prop :=
  ∀ (p : Parser) (links : List Link), p.Grades kinds strength → Chain kinds p.current links →
    p.Awaits links behind → Grows strength behind bound p.current [] links p (operand bound p)

theorem Divided.none {strength : Kind → Precedence} {bound : Precedence} {links : List Link}
    (stops : ∀ l ∈ links.head?, ¬ bound < strength l.operator.kind) :
    Divided strength bound links [] links :=
  ⟨rfl, fun _ member => absurd member List.not_mem_nil, stops⟩

theorem Divided.suffix {strength : Kind → Precedence} {bound : Precedence}
    {links taken rest : List Link} (divided : Divided strength bound links taken rest) :
    rest <:+ links :=
  ⟨taken, divided.whole.symm⟩

theorem Divided.chain {kinds : List Kind} {strength : Kind → Precedence} {bound : Precedence}
    {first : Token} {l : Link} {links taken rest : List Link}
    (divided : Divided strength bound links taken rest) (chain : Chain kinds first (l :: links)) :
    Chain kinds first rest :=
  ⟨chain.starts, fun m member =>
    chain.goes m (List.mem_cons_of_mem l (divided.suffix.subset member))⟩

/-- What follows a right operand binds no tighter than the operator, nor than anything taken before. -/
theorem Divided.order {strength : Kind → Precedence} {l : Link} {links inside outside done : List Link}
    (divided : Divided strength (strength l.operator.kind) links inside outside)
    (binds : ∀ d ∈ done, strength l.operator.kind ≤ strength d.operator.kind) :
    ∀ m ∈ outside.head?, ∀ d ∈ done ++ l :: inside,
      strength m.operator.kind ≤ strength d.operator.kind := by
  intro m front d member
  have loose : strength m.operator.kind ≤ strength l.operator.kind :=
    Nat.not_lt.1 (divided.stops m front)
  rcases List.mem_append.1 member with before | behind
  · exact Nat.le_trans loose (binds d before)
  · rcases List.mem_cons.1 behind with rfl | right
    · exact loose
    · exact Nat.le_trans loose (Nat.le_of_lt (divided.tighter d right))

theorem Divided.link {strength : Kind → Precedence} {bound : Precedence} {l : Link}
    {links inside outside taken rest : List Link} (binds : bound < strength l.operator.kind)
    (divided : Divided strength (strength l.operator.kind) links inside outside)
    (further : Divided strength bound outside taken rest) :
    Divided strength bound (l :: links) (l :: inside ++ taken) rest := by
  refine ⟨?_, ?_, further.stops⟩
  · rw [divided.whole, further.whole, List.append_assoc, List.cons_append]
  · rw [List.cons_append, List.forall_mem_cons, List.forall_mem_append]
    exact ⟨binds, fun m member => Nat.lt_trans binds (divided.tighter m member), further.tighter⟩

namespace Expression

theorem opening_atom {p : Parser} {e : Expr} (atom : Atom p.current e)
    (table : p.table.opening = RuleTable.standard.opening) (operand : Operand) :
    ∃ rule, p.table.opening p.current.kind = some rule ∧ opening operand rule p = (.ok e, p) := by
  rw [table]
  generalize current : p.current = t at atom
  cases atom with
  | name kind => exact ⟨.name, by rw [kind]; rfl, by rw [← current]; rfl⟩
  | integer kind digits bound =>
    refine ⟨.integer, by rw [kind]; rfl, integer_eq_ok.2 ⟨_, ?_, by rw [current], rfl⟩⟩
    rw [current]
    exact integerValue?_eq_some_iff.2 ⟨digits, bound, rfl⟩
  | string kind => exact ⟨.string, by rw [kind]; rfl, string_eq_ok.2 ⟨by rw [current], rfl⟩⟩
  | yes kind =>
    exact ⟨.boolean, by rw [kind]; rfl, boolean_eq_ok.2 ⟨by rw [current, kind]; rfl, rfl⟩⟩
  | no kind =>
    exact ⟨.boolean, by rw [kind]; rfl, boolean_eq_ok.2 ⟨by rw [current, kind]; rfl, rfl⟩⟩

section

variable {kinds : List Kind} {strength : Kind → Precedence} {behind : Stream' Token}
  {operand : Operand} {bound : Precedence} {p : Parser} {l : Link} {links done : List Link}
  {left : Expr} {first : Token}

theorem stops_of_ended (ended : behind.head.kind = .eof) (grades : p.Grades kinds strength)
    (awaits : p.Awaits [] behind) : ¬ continues bound p = true := by
  intro more
  have next := peek_ne_eof_of_continues grades.silent more
  rw [awaits.peek_of_nil] at next
  exact next ended

theorem continues_iff (grades : p.Grades kinds strength) (kind : l.operator.kind ∈ kinds)
    (plain : l.operator.kind ≠ .semicolon) (awaits : p.Awaits (l :: links) behind) :
    continues bound p = true ↔ bound < strength l.operator.kind := by
  simp only [continues, peekPrecedence, awaits.peek, grades.strength _ kind, plain, ne_eq,
    not_false_eq_true, decide_true, Bool.true_and, decide_eq_true_eq]

theorem continuation_takes (takes : operand.Takes kinds strength behind (strength l.operator.kind))
    (grades : p.Grades kinds strength) (chain : Chain kinds first (l :: links))
    (awaits : p.Awaits (l :: links) behind) (graded : Graded strength left first done)
    (binds : ∀ d ∈ done, strength l.operator.kind ≤ strength d.operator.kind) :
    Grows strength behind (strength l.operator.kind) first (done ++ [l]) links p
      (continuation operand left .binary p.advance) := by
  have inside := List.forall_mem_cons.1 chain.goes
  have chainRight : Chain kinds p.advance.advance.current links := by
    rw [awaits.operand]
    exact ⟨inside.1.2, inside.2⟩
  obtain ⟨e, q, taken, rest, built, divided, gradedRight, further, log⟩ :=
    takes _ links (grades.of_reaches Reaches.refl.advance.advance) chainRight awaits.further
  rw [awaits.operand] at gradedRight
  refine ⟨_, q, taken, rest, binary_eq_ok.2 ⟨e, ?_, rfl⟩, divided, ?_, further, log⟩
  · rw [currentPrecedence, advance_current, advance_table, awaits.peek,
      grades.strength _ inside.1.1]
    exact built
  · rw [advance_current, awaits.peek, ← List.append_cons]
    exact .binary l graded gradedRight binds divided.tighter

theorem onward_takes (steady : ∀ bound, (operand bound).Steady)
    (ended : behind.head.kind = .eof) (plain : ∀ k ∈ kinds, k ≠ .semicolon)
    (takes : ∀ tighter, bound < tighter → operand.Takes kinds strength behind tighter)
    (grades : p.Grades kinds strength) (chain : Chain kinds first links)
    (awaits : p.Awaits links behind) (graded : Graded strength left first done)
    (order : ∀ l ∈ links.head?, ∀ d ∈ done, strength l.operator.kind ≤ strength d.operator.kind) :
    Grows strength behind bound first done links p (onward operand bound left p) := by
  -- A round can take many links, as the right operand takes some too, so the links are counted.
  induction size : links.length using Nat.strongRecOn generalizing links done left p with
  | _ n ih =>
    cases links with
    | nil =>
      refine ⟨left, p, [], [], onward_stop (stops_of_ended ended grades awaits),
        .none fun _ front => absurd front (Option.not_mem_none _), ?_, awaits, rfl⟩
      rwa [List.append_nil]
    | cons l links =>
      obtain ⟨kind, _⟩ := chain.goes l List.mem_cons_self
      have tighter := @continues_iff kinds strength behind bound p l links grades kind
        (plain _ kind) awaits
      have binds : ∀ d ∈ done, strength l.operator.kind ≤ strength d.operator.kind :=
        order l (Option.mem_some_self l)
      by_cases more : continues bound p = true
      · have right := takes (strength l.operator.kind) (tighter.1 more)
        obtain ⟨longer, q, inside, outside, built, divided, gradedToo, further, log⟩ :=
          continuation_takes right grades chain awaits graded binds
        rw [← List.append_cons] at gradedToo
        have ruled : p.table.continuation p.peek.kind = some .binary := by
          rw [awaits.peek]
          exact grades.binary _ kind
        have reaches := Reaches.refl.advance.trans
          ((steady_continuation steady left .binary).reaches built)
        have shorter : outside.length < n := by
          rw [← size]
          exact Nat.lt_succ_of_le divided.suffix.length_le
        obtain ⟨e, r, taken, rest, climbed, dividedToo, gradedAll, last, logToo⟩ :=
          ih outside.length shorter (grades.of_reaches reaches) (divided.chain chain) further gradedToo
            (divided.order binds) rfl
        refine ⟨e, r, l :: inside ++ taken, rest, ?_, divided.link (tighter.1 more) dividedToo, ?_,
          last, logToo.trans log⟩
        · rw [onward_step steady grades.silent grades.rounds more ruled, bind_of_ok built]
          exact climbed
        · rwa [List.append_assoc] at gradedAll
      · refine ⟨left, p, [], l :: links, onward_stop more, .none ?_, ?_, awaits, rfl⟩
        · intro m front
          rw [← Option.mem_some_iff.1 front]
          exact fun binds => more (tighter.2 binds)
        · rwa [List.append_nil]

theorem within_takes (ended : behind.head.kind = .eof) (plain : ∀ k ∈ kinds, k ≠ .semicolon)
    (levels : Nat) (bound : Precedence) (deep : 9 ≤ levels + bound.rank) :
    Operand.Takes (within levels) kinds strength behind bound := by
  induction levels generalizing bound with
  | zero =>
    cases bound <;> simp [Precedence.rank] at deep
  | succ levels ih =>
    intro p links grades chain awaits
    have takes : ∀ tighter, bound < tighter →
        Operand.Takes (within levels) kinds strength behind tighter := by
      intro tighter binds
      have above := Precedence.lt_iff_rank.1 binds
      exact ih tighter (by omega)
    obtain ⟨first, atom⟩ := chain.starts
    have gradesToo : Grades kinds strength { p with depth := p.depth + 1 } :=
      ⟨grades.opening, grades.binary, grades.strength, grades.silent, grades.rounds⟩
    obtain ⟨rule, opens, opened⟩ := @opening_atom { p with depth := p.depth + 1 } first atom
      grades.opening (within levels)
    obtain ⟨e, q, taken, rest, climbed, divided, graded, further, log⟩ :=
      onward_takes (steady_within levels) ended plain takes gradesToo chain awaits (.atom atom)
        fun _ _ d member => absurd member List.not_mem_nil
    refine ⟨e, { q with depth := q.depth - 1 }, taken, rest, ?_, divided, graded, further, log⟩
    refine within_eq_ok.2 ⟨q, ?_, rfl⟩
    rw [start_opened (steady_within levels) opens, bind_of_ok opened]
    exact climbed

end

end Expression

theorem Statement.statements_of_chain {kinds : List Kind} {strength : Kind → Precedence}
    {behind : Stream' Token} {p : Parser} {links : List Link} (ended : behind.head.kind = .eof)
    (plain : ∀ k ∈ kinds, k ≠ .semicolon) (binds : ∀ k ∈ kinds, .lowest < strength k)
    (deep : 8 ≤ p.levels) (grades : p.Grades kinds strength) (chain : Chain kinds p.current links)
    (awaits : p.Awaits links behind) :
    ∃ e q, statements p.operand endsProgram p = ([.expression p.current e], q) ∧
      Graded strength e p.current links ∧ q.log = p.log := by
  have enough : 9 ≤ p.levels + Precedence.lowest.rank := Nat.succ_le_succ deep
  obtain ⟨e, q, taken, rest, built, divided, graded, further, log⟩ :=
    within_takes ended plain p.levels .lowest enough p links grades chain awaits
  -- No operator of the chain is too weak for the lowest bound, so none is left over.
  have all : rest = [] := by
    cases rest with
    | nil => rfl
    | cons l rest =>
      have among := chain.goes l (divided.suffix.subset List.mem_cons_self)
      exact absurd (binds _ among.1) (divided.stops l (Option.mem_some_self l))
  have whole : taken = links := by
    rw [divided.whole, all, List.append_nil]
  rw [all] at further
  have next : q.peek.kind = .eof := by rw [further.peek_of_nil, ended]
  have past : q.pastSemicolon = q := by
    rw [pastSemicolon, next]
    exact if_neg (by decide)
  obtain ⟨first, atom⟩ := chain.starts
  obtain ⟨rule, opens, _⟩ := opening_atom atom grades.opening p.operand
  have opensToo : RuleTable.standard.opening p.current.kind = some rule := by
    rw [← grades.opening, opens]
  have goes : ¬ endsProgram p.current.kind = true := by
    intro done
    rw [of_decide_eq_true done] at opensToo
    cases opensToo
  have parsed : any p.operand p = (.ok (.expression p.current e), q) := by
    rw [any_of_opening rule opensToo]
    exact expression_eq_ok.2 ⟨e, q, built, rfl, past.symm⟩
  have closed : endsProgram q.advance.current.kind = true := decide_eq_true next
  have steady : ∀ bound, (p.operand bound).Steady := steady_within p.levels
  refine ⟨e, q.advance, ?_, whole ▸ graded, log⟩
  rw [statements_built steady rfl grades.rounds goes parsed, statements_closed closed]

/-- With any kinds of token registered as binary operators at any strengths above the lowest, a chain
of these operators is parsed to the one tree in which the strengths are in order, and nothing is
reported. Eight levels of nesting are enough for any number of operators. -/
theorem operators_group_by_strength {kinds : List Kind} {strength : Kind → Precedence}
    (registered : ∀ k ∈ kinds, k ≠ .semicolon ∧ k ≠ .eof ∧ .lowest < strength k)
    {maxDepth : Int} (deep : 8 ≤ maxDepth) {source : Source} {first : Token} {links : List Link}
    {behind : Stream' Token} (chain : Chain kinds first links)
    (delivers : source.upcoming = (first :: links.flatMap Link.tokens) ++ₛ behind)
    (ended : behind.head.kind = .eof) :
    ∃ e b, ((Bench.onSource source maxDepth).registering kinds strength).serve .program =
        (.program ⟨[.expression first e]⟩, b) ∧
      b.parser.diagnostics = [] ∧ Graded strength e first links ∧
      ∀ other, Graded strength other first links → other = e := by
  obtain ⟨table, same, opening, binary, precedence⟩ :=
    (Bench.onSource source maxDepth).registering_eq kinds strength
  let p : Parser := { onSource source maxDepth with table }
  have tokens : p.upcoming = (first :: links.flatMap Link.tokens) ++ₛ behind := by
    rw [← delivers, ← upcoming_onSource source maxDepth]
    rfl
  have current : p.current = first := congrArg Stream'.head tokens
  have awaits : p.Awaits links behind := congrArg Stream'.tail tokens
  have levels : 8 ≤ p.levels := by
    have all : p.levels = maxDepth.toNat := levels_onSource source maxDepth
    omega
  have grades : p.Grades kinds strength := by
    refine ⟨opening, fun k member => ?_, fun k member => ?_, ?_, (ready_onSource _ _).rounds⟩
    · exact (binary k).trans (if_pos member)
    · exact (precedence k).trans (if_pos member)
    · exact (precedence .eof).trans (if_neg fun member => (registered _ member).2.1 rfl)
  rw [← current] at chain ⊢
  obtain ⟨e, q, built, graded, log⟩ := Statement.statements_of_chain ended
    (fun k member => (registered k member).1) (fun k member => (registered k member).2.2) levels
    grades chain awaits
  refine ⟨e, ⟨q.note (.parsed 1 q.diagnostics.length), default⟩, ?_, ?_, graded,
    fun other gradedToo => gradedToo.unique graded⟩
  · rw [same]
    show Bench.apply ⟨p, default⟩ (.always parseProgram) .program = _
    rw [Bench.apply, Rule.always, parseProgram_of_statements built]
    rfl
  · rw [diagnostics_note_parsed, Parser.diagnostics, log]
    rfl

def powerStrength (k : Kind) : Precedence := if k = .plus then .sum else .index

/-- In `a + b ** c` the power groups first once it is registered. -/
theorem registered_power_groups_first :
    (∀ k ∈ [Kind.plus, .other "POW"],
        k ≠ .semicolon ∧ k ≠ .eof ∧ .lowest < powerStrength k) ∧
      ∃ b, ((Bench.onSource (.ofList [⟨.identifier, "a", ⟨1, 1⟩⟩, ⟨.plus, "+", ⟨1, 3⟩⟩,
          ⟨.identifier, "b", ⟨1, 5⟩⟩, ⟨.other "POW", "**", ⟨1, 7⟩⟩,
          ⟨.identifier, "c", ⟨1, 10⟩⟩]) 8).registering [.plus, .other "POW"] powerStrength).serve
            .program =
          (.program ⟨[.expression ⟨.identifier, "a", ⟨1, 1⟩⟩
            (.binary ⟨.plus, "+", ⟨1, 3⟩⟩ (.name ⟨⟨.identifier, "a", ⟨1, 1⟩⟩, "a"⟩) "+"
              (.binary ⟨.other "POW", "**", ⟨1, 7⟩⟩ (.name ⟨⟨.identifier, "b", ⟨1, 5⟩⟩, "b"⟩) "**"
                (.name ⟨⟨.identifier, "c", ⟨1, 10⟩⟩, "c"⟩)))]⟩, b) ∧
        b.parser.diagnostics = [] := by
  have registered : ∀ k ∈ [Kind.plus, .other "POW"],
      k ≠ .semicolon ∧ k ≠ .eof ∧ .lowest < powerStrength k := by
    decide
  have a : Atom ⟨.identifier, "a", ⟨1, 1⟩⟩ _ := .name rfl
  have b : Atom ⟨.identifier, "b", ⟨1, 5⟩⟩ _ := .name rfl
  have c : Atom ⟨.identifier, "c", ⟨1, 10⟩⟩ _ := .name rfl
  have goes : ∀ l ∈ [(⟨⟨.plus, "+", ⟨1, 3⟩⟩, ⟨.identifier, "b", ⟨1, 5⟩⟩⟩ : Link),
      ⟨⟨.other "POW", "**", ⟨1, 7⟩⟩, ⟨.identifier, "c", ⟨1, 10⟩⟩⟩],
      l.operator.kind ∈ [Kind.plus, .other "POW"] ∧ ∃ e, Atom l.operand e := by
    rw [List.forall_mem_cons, List.forall_mem_singleton]
    exact ⟨⟨by decide, _, b⟩, by decide, _, c⟩
  have delivers := delivered_ofList [⟨.identifier, "a", ⟨1, 1⟩⟩, ⟨.plus, "+", ⟨1, 3⟩⟩,
    ⟨.identifier, "b", ⟨1, 5⟩⟩, ⟨.other "POW", "**", ⟨1, 7⟩⟩, ⟨.identifier, "c", ⟨1, 10⟩⟩]
  obtain ⟨e, bench, served, clean, _, unique⟩ :=
    operators_group_by_strength registered (Int.le_refl 8) ⟨⟨_, a⟩, goes⟩ delivers rfl
  have power := @Graded.binary powerStrength _ _ _ [] []
    ⟨⟨.other "POW", "**", ⟨1, 7⟩⟩, ⟨.identifier, "c", ⟨1, 10⟩⟩⟩ (.atom b) (.atom c)
    (fun _ member => absurd member List.not_mem_nil) fun _ member => absurd member List.not_mem_nil
  have sum := @Graded.binary powerStrength _ _ _ [] _
    ⟨⟨.plus, "+", ⟨1, 3⟩⟩, ⟨.identifier, "b", ⟨1, 5⟩⟩⟩ (.atom a) power
    (fun _ member => absurd member List.not_mem_nil) (List.forall_mem_singleton.2 (by decide))
  rw [← unique _ sum] at served
  exact ⟨registered, bench, served, clean⟩

end PrattFrontEnd
