import PrattFrontEnd.Proofs.Parser.Rounds

/-!
What a rule has read when it succeeds. Each statement takes one rule apart: the rule built this from
that parser exactly when its parts were there, one behind the other.
-/
namespace PrattFrontEnd

def Parser.pastSemicolon (p : Parser) : Parser :=
  if p.peek.kind = .semicolon then p.advance else p

namespace Rule

variable {p q : Parser} {b : β}

theorem here_bind (next : Token → Rule β) : (here >>= next) p = next p.current p := rfl

theorem strength_bind (next : Precedence → Rule β) :
    (strength >>= next) p = next p.currentPrecedence p := rfl

theorem name_bind (next : Name → Rule β) :
    (name >>= next) p = next ⟨p.current, p.current.text⟩ p := rfl

theorem advance_bind (next : Unit → Rule β) : (advance >>= next) p = next () p.advance := rfl

theorem accept_semicolon_bind (next : Bool → Rule β) :
    (accept .semicolon >>= next) p = next (p.peek.kind = .semicolon : Bool) p.pastSemicolon := by
  unfold Parser.pastSemicolon
  by_cases found : p.peek.kind = .semicolon
  · rw [bind_of_ok (accept_yes found)]
    simp [found]
  · rw [bind_of_ok (accept_no found)]
    simp [found]

theorem bind_eq_ok {first : Rule α} {next : α → Rule β} :
    (first >>= next) p = (.ok b, q) ↔
      ∃ a r, first p = (.ok a, r) ∧ next a r = (.ok b, q) := by
  rw [bind_apply]
  constructor
  · intro built
    cases run : first p with
    | mk result r =>
      rw [run] at built
      cases result with
      | ok a => exact ⟨a, r, rfl, built⟩
      | error failure => cases built
  · rintro ⟨a, r, run, rest⟩
    rw [run]
    exact rest

theorem pure_eq_ok {a : β} : (pure a : Rule β) p = (.ok b, q) ↔ b = a ∧ q = p := by
  simp [pure_apply, eq_comm]

theorem fail_ne_ok {diagnostic : Diagnostic} {token : Token} :
    ¬ (fail diagnostic token : Rule β) p = (.ok b, q) := by
  intro built
  cases built

theorem expect_bind_eq_ok {wanted : Kind} {next : Unit → Rule β} :
    (expect wanted >>= next) p = (.ok b, q) ↔
      p.peek.kind = wanted ∧ next () p.advance = (.ok b, q) := by
  rw [bind_apply]
  unfold expect
  by_cases found : p.peek.kind = wanted
  · rw [if_pos found]
    exact ⟨fun built => ⟨found, built⟩, fun built => built.2⟩
  · rw [if_neg found]
    constructor
    · intro built
      cases built
    · intro built
      exact absurd built.1 found

theorem accept_bind_eq_ok {kind : Kind} {next : Bool → Rule β} :
    (accept kind >>= next) p = (.ok b, q) ↔
      (p.peek.kind = kind ∧ next true p.advance = (.ok b, q)) ∨
        (p.peek.kind ≠ kind ∧ next false p = (.ok b, q)) := by
  by_cases found : p.peek.kind = kind
  · rw [bind_of_ok (accept_yes found)]
    simp [found]
  · rw [bind_of_ok (accept_no found)]
    simp [found]

theorem always_bind_eq_ok {step : Parser → α × Parser} {next : α → Rule β} :
    (always step >>= next) p = (.ok b, q) ↔
      ∃ a r, step p = (a, r) ∧ next a r = (.ok b, q) := by
  constructor
  · intro built
    exact ⟨(step p).1, (step p).2, rfl, built⟩
  · rintro ⟨a, r, run, rest⟩
    rw [bind_of_ok (show always step p = (.ok a, r) by rw [always, run])]
    exact rest

end Rule

open Rule

section

variable {operand : Operand} {p q : Parser}

namespace Statement

variable {s : Stmt}

theorem binding_eq_ok :
    binding operand p = (.ok s, q) ↔
      p.peek.kind = .identifier ∧ p.advance.peek.kind = .assign ∧
        ∃ value r, operand .lowest p.advance.advance.advance = (.ok value, r) ∧
          s = .binding p.current ⟨p.peek, p.peek.text⟩ value ∧ q = r.pastSemicolon := by
  simp only [binding, here_bind, expect_bind_eq_ok, name_bind, advance_bind, bind_eq_ok (α := Expr),
    accept_semicolon_bind, pure_eq_ok, Parser.advance_current]

theorem result_eq_ok :
    result operand p = (.ok s, q) ↔
      ∃ value r, operand .lowest p.advance = (.ok value, r) ∧
        s = .result p.current value ∧ q = r.pastSemicolon := by
  simp only [result, here_bind, advance_bind, bind_eq_ok, accept_semicolon_bind, pure_eq_ok]

theorem expression_eq_ok :
    expression operand p = (.ok s, q) ↔
      ∃ value r, operand .lowest p = (.ok value, r) ∧
        s = .expression p.current value ∧ q = r.pastSemicolon := by
  simp only [expression, here_bind, bind_eq_ok, accept_semicolon_bind, pure_eq_ok]

theorem any_of_opening (rule : Opening)
    (opens : RuleTable.standard.opening p.current.kind = some rule) :
    any operand p = expression operand p := by
  unfold any
  split
  · rename_i kind
    rw [kind] at opens
    cases opens
  · rename_i kind
    rw [kind] at opens
    cases opens
  · rfl

end Statement

namespace Expression

variable {e : Expr}

theorem integer_eq_ok :
    integer p = (.ok e, q) ↔
      ∃ value, integerValue? p.current.text = some value ∧
        e = .integer p.current value ∧ q = p := by
  unfold integer
  cases value : integerValue? p.current.text with
  | none => simp [fail]
  | some value => simp [eq_comm]

theorem string_eq_ok :
    string p = (.ok e, q) ↔ e = .string p.current p.current.text ∧ q = p := by
  simp only [string, here_bind, pure_eq_ok]

theorem boolean_eq_ok :
    boolean p = (.ok e, q) ↔
      e = .boolean p.current (p.current.kind = .trueWord) ∧ q = p := by
  simp only [boolean, here_bind, pure_eq_ok]

theorem unary_eq_ok :
    unary operand p = (.ok e, q) ↔
      ∃ right, operand .unary p.advance = (.ok right, q) ∧
        e = .unary p.current p.current.text right := by
  simp only [unary, here_bind, advance_bind, bind_eq_ok, pure_eq_ok]
  constructor
  · rintro ⟨right, r, built, rfl, rfl⟩
    exact ⟨right, built, rfl⟩
  · rintro ⟨right, built, rfl⟩
    exact ⟨right, q, built, rfl, rfl⟩

theorem group_eq_ok :
    group operand p = (.ok e, q) ↔
      ∃ r, operand .lowest p.advance = (.ok e, r) ∧ r.peek.kind = .rightParen ∧
        q = r.advance := by
  simp only [group, advance_bind, bind_eq_ok (α := Expr), expect_bind_eq_ok, pure_eq_ok]
  constructor
  · rintro ⟨inner, r, built, closed, rfl, rfl⟩
    exact ⟨r, built, closed, rfl⟩
  · rintro ⟨r, built, closed, rfl⟩
    exact ⟨e, r, built, closed, rfl, rfl⟩

theorem conditional_eq_ok :
    conditional operand p = (.ok e, q) ↔
      p.peek.kind = .leftParen ∧
        ∃ condition r, operand .lowest p.advance.advance = (.ok condition, r) ∧
          r.peek.kind = .rightParen ∧ r.advance.peek.kind = .leftBrace ∧
          ∃ consequence s, Statement.block operand r.advance.advance = (consequence, s) ∧
            ((s.peek.kind = .elseWord ∧ s.advance.peek.kind = .leftBrace ∧
                ∃ alternative, Statement.block operand s.advance.advance = (alternative, q) ∧
                  e = .conditional p.current condition consequence (some alternative)) ∨
              (s.peek.kind ≠ .elseWord ∧ q = s ∧
                e = .conditional p.current condition consequence none)) := by
  simp only [conditional, here_bind, advance_bind, expect_bind_eq_ok, bind_eq_ok (α := Expr),
    always_bind_eq_ok, accept_bind_eq_ok, if_true, Bool.false_eq_true, if_false, pure_eq_ok]
  constructor
  · rintro ⟨opened, condition, r, built, closed, braced, consequence, s, first, rest⟩
    refine ⟨opened, condition, r, built, closed, braced, consequence, s, first, ?_⟩
    rcases rest with ⟨other, braced', alternative, t, second, rfl, rfl⟩ | ⟨none, rfl, rfl⟩
    · exact Or.inl ⟨other, braced', alternative, second, rfl⟩
    · exact Or.inr ⟨none, rfl, rfl⟩
  · rintro ⟨opened, condition, r, built, closed, braced, consequence, s, first, rest⟩
    refine ⟨opened, condition, r, built, closed, braced, consequence, s, first, ?_⟩
    rcases rest with ⟨other, braced', alternative, second, rfl⟩ | ⟨none, rfl, rfl⟩
    · exact Or.inl ⟨other, braced', alternative, q, second, rfl, rfl⟩
    · exact Or.inr ⟨none, rfl, rfl⟩

theorem furtherParameters_eq_ok (rounds : p.horizon ≤ p.span) {names : List Name} :
    furtherParameters p = (.ok names, q) ↔
      (p.peek.kind ≠ .comma ∧ names = [] ∧ q = p) ∨
        (p.peek.kind = .comma ∧ p.advance.peek.kind = .identifier ∧
          ∃ rest, furtherParameters p.advance.advance = (.ok rest, q) ∧
            names = ⟨p.advance.peek, p.advance.peek.text⟩ :: rest) := by
  by_cases more : p.peek.kind = .comma
  · rw [furtherParameters_step rounds more]
    simp only [expect_bind_eq_ok, name_bind, bind_eq_ok (α := List Name), pure_eq_ok,
      Parser.advance_current]
    constructor
    · rintro ⟨named, rest, r, further, rfl, rfl⟩
      exact Or.inr ⟨more, named, rest, further, rfl⟩
    · rintro (⟨none, _⟩ | ⟨_, named, rest, further, rfl⟩)
      · exact absurd more none
      · exact ⟨named, rest, q, further, rfl, rfl⟩
  · rw [furtherParameters_stop more]
    simp [more, eq_comm]

theorem parameters_eq :
    parameters = (do
      if ← accept .rightParen then
        return []
      else
        expect .identifier
        let name ← name
        let names ← furtherParameters
        expect .rightParen
        return name :: names : Rule (List Name)) := rfl

theorem parameters_eq_ok {names : List Name} :
    parameters p = (.ok names, q) ↔
      (p.peek.kind = .rightParen ∧ names = [] ∧ q = p.advance) ∨
        (p.peek.kind = .identifier ∧
          ∃ rest r, furtherParameters p.advance = (.ok rest, r) ∧ r.peek.kind = .rightParen ∧
            names = ⟨p.peek, p.peek.text⟩ :: rest ∧ q = r.advance) := by
  simp only [parameters_eq, accept_bind_eq_ok, if_true, Bool.false_eq_true, if_false, pure_eq_ok,
    expect_bind_eq_ok, name_bind, bind_eq_ok (α := List Name), Parser.advance_current]
  constructor
  · rintro (⟨empty, rfl, rfl⟩ | ⟨_, named, rest, r, further, closed, rfl, rfl⟩)
    · exact Or.inl ⟨empty, rfl, rfl⟩
    · exact Or.inr ⟨named, rest, r, further, closed, rfl, rfl⟩
  · rintro (⟨empty, rfl, rfl⟩ | ⟨named, rest, r, further, closed, rfl, rfl⟩)
    · exact Or.inl ⟨empty, rfl, rfl⟩
    · have some : p.peek.kind ≠ .rightParen := by
        rw [named]
        decide
      exact Or.inr ⟨some, named, rest, r, further, closed, rfl, rfl⟩

theorem function_eq_ok :
    function operand p = (.ok e, q) ↔
      p.peek.kind = .leftParen ∧
        ∃ names r, parameters p.advance = (.ok names, r) ∧ r.peek.kind = .leftBrace ∧
          ∃ body, Statement.block operand r.advance = (body, q) ∧
            e = .function p.current names body := by
  simp only [function, here_bind, expect_bind_eq_ok, bind_eq_ok (α := List Name),
    always_bind_eq_ok, pure_eq_ok]
  constructor
  · rintro ⟨opened, names, r, listed, braced, body, s, block, rfl, rfl⟩
    exact ⟨opened, names, r, listed, braced, body, block, rfl⟩
  · rintro ⟨opened, names, r, listed, braced, body, block, rfl⟩
    exact ⟨opened, names, r, listed, braced, body, q, block, rfl, rfl⟩

theorem furtherItems_eq_ok (steady : ∀ bound, (operand bound).Steady)
    (rounds : p.horizon ≤ p.span) {items : List Expr} :
    furtherItems operand p = (.ok items, q) ↔
      (p.peek.kind ≠ .comma ∧ items = [] ∧ q = p) ∨
        (p.peek.kind = .comma ∧
          ∃ item r rest, operand .lowest p.advance.advance = (.ok item, r) ∧
            furtherItems operand r = (.ok rest, q) ∧ items = item :: rest) := by
  by_cases more : p.peek.kind = .comma
  · rw [furtherItems_step steady rounds more]
    simp only [bind_eq_ok, pure_eq_ok]
    constructor
    · rintro ⟨item, r, built, rest, s, further, rfl, rfl⟩
      exact Or.inr ⟨more, item, r, rest, built, further, rfl⟩
    · rintro (⟨none, _⟩ | ⟨_, item, r, rest, built, further, rfl⟩)
      · exact absurd more none
      · exact ⟨item, r, built, rest, q, further, rfl, rfl⟩
  · rw [furtherItems_stop more]
    simp [more, eq_comm]

theorem items_eq (closing : Kind) :
    Expression.items operand closing = (do
      if ← accept closing then
        return []
      else
        advance
        let item ← operand .lowest
        let items ← furtherItems operand
        expect closing
        return item :: items : Rule (List Expr)) := rfl

theorem items_eq_ok {closing : Kind} {items : List Expr} :
    Expression.items operand closing p = (.ok items, q) ↔
      (p.peek.kind = closing ∧ items = [] ∧ q = p.advance) ∨
        (p.peek.kind ≠ closing ∧
          ∃ item r rest s, operand .lowest p.advance = (.ok item, r) ∧
            furtherItems operand r = (.ok rest, s) ∧ s.peek.kind = closing ∧
            items = item :: rest ∧ q = s.advance) := by
  simp only [items_eq, accept_bind_eq_ok, if_true, Bool.false_eq_true, if_false,
    pure_eq_ok, advance_bind, bind_eq_ok (α := Expr), bind_eq_ok (α := List Expr),
    expect_bind_eq_ok]
  constructor
  · rintro (⟨empty, rfl, rfl⟩ | ⟨some, item, r, built, rest, s, further, closed, rfl, rfl⟩)
    · exact Or.inl ⟨empty, rfl, rfl⟩
    · exact Or.inr ⟨some, item, r, rest, s, built, further, closed, rfl, rfl⟩
  · rintro (⟨empty, rfl, rfl⟩ | ⟨some, item, r, rest, s, built, further, closed, rfl, rfl⟩)
    · exact Or.inl ⟨empty, rfl, rfl⟩
    · exact Or.inr ⟨some, item, r, built, rest, s, further, closed, rfl, rfl⟩

theorem array_eq_ok :
    array operand p = (.ok e, q) ↔
      ∃ elements, items operand .rightBracket p = (.ok elements, q) ∧
        e = .array p.current elements := by
  simp only [array, here_bind, bind_eq_ok, pure_eq_ok]
  constructor
  · rintro ⟨elements, r, listed, rfl, rfl⟩
    exact ⟨elements, listed, rfl⟩
  · rintro ⟨elements, listed, rfl⟩
    exact ⟨elements, q, listed, rfl, rfl⟩

theorem binary_eq_ok {left : Expr} :
    binary operand left p = (.ok e, q) ↔
      ∃ right, operand p.currentPrecedence p.advance = (.ok right, q) ∧
        e = .binary p.current left p.current.text right := by
  simp only [binary, here_bind, strength_bind, advance_bind, bind_eq_ok, pure_eq_ok]
  constructor
  · rintro ⟨right, r, built, rfl, rfl⟩
    exact ⟨right, built, rfl⟩
  · rintro ⟨right, built, rfl⟩
    exact ⟨right, q, built, rfl, rfl⟩

theorem call_eq_ok {callee : Expr} :
    call operand callee p = (.ok e, q) ↔
      ∃ arguments, items operand .rightParen p = (.ok arguments, q) ∧
        e = .call p.current callee arguments := by
  simp only [call, here_bind, bind_eq_ok, pure_eq_ok]
  constructor
  · rintro ⟨arguments, r, listed, rfl, rfl⟩
    exact ⟨arguments, listed, rfl⟩
  · rintro ⟨arguments, listed, rfl⟩
    exact ⟨arguments, q, listed, rfl, rfl⟩

theorem index_eq_ok {collection : Expr} :
    index operand collection p = (.ok e, q) ↔
      ∃ position r, operand .lowest p.advance = (.ok position, r) ∧
        r.peek.kind = .rightBracket ∧ e = .index p.current collection position ∧
        q = r.advance := by
  simp only [index, here_bind, advance_bind, bind_eq_ok (α := Expr), expect_bind_eq_ok,
    pure_eq_ok]

theorem start_eq_ok {bound : Precedence} (steady : ∀ bound, (operand bound).Steady) :
    start operand bound p = (.ok e, q) ↔
      ∃ rule, p.table.opening p.current.kind = some rule ∧
        ∃ left r, opening operand rule p = (.ok left, r) ∧
          onward operand bound left r = (.ok e, q) := by
  cases opened : p.table.opening p.current.kind with
  | none => simp [start, opened, fail]
  | some rule => simp only [start_opened steady opened, bind_eq_ok, Option.some.injEq, exists_eq_left']

theorem ruled_of_continues {bound : Precedence} (ready : p.Ready)
    (more : continues bound p = true) : ∃ step, p.table.continuation p.peek.kind = some step := by
  rw [ready.table]
  have tighter : bound < RuleTable.standard.precedenceOf p.peek.kind := by
    simp only [continues, Parser.peekPrecedence, ready.table, Bool.and_eq_true,
      decide_eq_true_eq] at more
    exact more.2
  rw [Precedence.lt_iff_rank] at tighter
  cases kind : p.peek.kind <;> rw [kind] at tighter <;> first
    | exact ⟨_, rfl⟩
    | (cases bound <;> simp [RuleTable.precedenceOf, RuleTable.standard, Kind.precedence?,
        Precedence.rank] at tighter)

/-- What every continuing rule preserves holds of the expression and the parser that are left when
nothing continues it any more. -/
theorem onward_invariant {bound : Precedence} (holds : Expr → Parser → Prop)
    (steady : ∀ bound, (operand bound).Steady)
    (kept : ∀ (left longer : Expr) (p q : Parser) (step : Continuation), p.Ready →
      holds left p → continues bound p = true →
      RuleTable.standard.continuation p.peek.kind = some step →
      continuation operand left step p.advance = (.ok longer, q) → holds longer q)
    {left : Expr} (ready : p.Ready) (start : holds left p)
    (run : onward operand bound left p = (.ok e, q)) :
    holds e q ∧ q.Ready ∧ continues bound q = false := by
  induction size : p.horizon using Nat.strongRecOn generalizing p left with
  | _ n ih =>
    by_cases more : continues bound p = true
    · obtain ⟨step, ruled⟩ := ruled_of_continues ready more
      have silent : p.table.precedenceOf .eof = .lowest := by rw [ready.table]; rfl
      rw [onward_step steady silent ready.rounds more ruled, bind_eq_ok] at run
      obtain ⟨longer, r, built, rest⟩ := run
      have reaches := (steady_continuation steady left step).reaches built
      have shorter := Parser.horizon_lt_of_advance (peek_ne_eof_of_continues silent more) reaches
      rw [ready.table] at ruled
      exact ih r.horizon (size ▸ shorter)
        (ready.of_reaches (Parser.Reaches.refl.advance.trans reaches))
        (kept left longer p r step ready start more ruled built) rest rfl
    · rw [onward_stop more] at run
      cases run
      exact ⟨start, ready, Bool.eq_false_iff.2 more⟩

theorem within_eq (levels : Nat) (bound : Precedence) (p : Parser) :
    within (levels + 1) bound p =
      ((start (within levels) bound { p with depth := p.depth + 1 }).1,
        { (start (within levels) bound { p with depth := p.depth + 1 }).2 with
          depth := (start (within levels) bound { p with depth := p.depth + 1 }).2.depth - 1 }) :=
  rfl

theorem within_eq_ok {levels : Nat} {bound : Precedence} :
    within (levels + 1) bound p = (.ok e, q) ↔
      ∃ r, start (within levels) bound { p with depth := p.depth + 1 } = (.ok e, r) ∧
        q = { r with depth := r.depth - 1 } := by
  rw [within_eq]
  cases run : start (within levels) bound { p with depth := p.depth + 1 } with
  | mk result r =>
    simp only [Prod.mk.injEq]
    constructor
    · rintro ⟨rfl, rfl⟩
      exact ⟨r, ⟨rfl, rfl⟩, rfl⟩
    · rintro ⟨_, ⟨rfl, rfl⟩, rfl⟩
      exact ⟨rfl, rfl⟩

end Expression

end

end PrattFrontEnd
