import PrattFrontEnd.Proofs.Rendering.Lexemes
import PrattFrontEnd.Parser.RuleTable
import PrattFrontEnd.Syntax.Record

/-!
One step of reading a rendering back. Once all shorter texts can be read in one way only, two
expressions that are no calls and stand at the front of one text are the same, and what stands behind
them is. Main statement: `Expr.coincide`.
-/
namespace PrattFrontEnd

open Lexeme

def Expr.groupLexemes (es : List Expr) : List Lexeme :=
  sign '(' :: (Expr.listLexemes es ++ [sign ')'])

def Unalternative (rest : List Lexeme) : Prop := ∀ l ∈ rest.head?, l.kind ≠ .elseWord

structure Concludes (rest : List Lexeme) : Prop where
  noElse : Unalternative rest
  noGroup : ∀ es more, Expr.AllLegible es → rest ≠ Expr.groupLexemes es ++ more

def Shuts (rest : List Lexeme) : Prop := ∀ l ∈ rest.head?, l.kind = .rightBrace

theorem unalternative_cons {l : Lexeme} {rest : List Lexeme} (other : l.kind ≠ .elseWord) :
    Unalternative (l :: rest) := by
  intro m front
  cases front
  exact other

theorem concludes_cons {l : Lexeme} {rest : List Lexeme} (other : l.kind ≠ .elseWord)
    (plain : l.kind ≠ .leftParen) : Concludes (l :: rest) := by
  refine ⟨unalternative_cons other, ?_⟩
  intro es more _ same
  rw [Expr.groupLexemes, List.cons_append] at same
  obtain ⟨rfl, _⟩ := List.cons.inj same
  exact plain rfl

theorem Shuts.concludes {rest : List Lexeme} (shuts : Shuts rest) : Concludes rest := by
  cases rest with
  | nil =>
    constructor
    · intro l front
      cases front
    · intro es more _ same
      cases same
  | cons l rest =>
    have brace : l.kind = .rightBrace := shuts l rfl
    exact concludes_cons (by rw [brace]; decide) (by rw [brace]; decide)

theorem shuts_cons {l : Lexeme} {rest : List Lexeme} (brace : l.kind = .rightBrace) :
    Shuts (l :: rest) := by
  intro m front
  cases front
  exact brace

def Expr.opening : Expr → Opening
  | .bare _ | .name _ => .name
  | .integer _ _ => .integer
  | .string _ _ => .string
  | .boolean _ _ => .boolean
  | .unary _ _ _ | .binary _ _ _ _ | .index _ _ _ => .group
  | .conditional _ _ _ _ => .conditional
  | .function _ _ _ => .function
  | .call _ callee _ => callee.opening
  | .array _ _ => .array
termination_by structural e => e

theorem Expr.opens : (e : Expr) → e.Legible →
    ∃ l ls, e.lexemes = l :: ls ∧ RuleTable.standard.opening l.kind = some e.opening
  | .bare _, legible => by simp at legible
  | .name _, _ | .integer _ _, _ | .string _ _, _ | .unary _ _ _, _ | .binary _ _ _ _, _
  | .index _ _ _, _ | .conditional _ _ _ none, _ | .conditional _ _ _ (some _), _
  | .function _ _ _, _ | .array _ _, _ => by
    rw [Expr.lexemes]
    exact ⟨_, _, rfl, rfl⟩
  | .boolean _ value, _ => by
    rw [Expr.lexemes]
    refine ⟨_, _, rfl, ?_⟩
    cases value <;> rfl
  | .call _ callee arguments, legible => by
    rw [Expr.Legible] at legible
    obtain ⟨l, ls, front, opens⟩ := callee.opens legible.1
    rw [Expr.lexemes, front]
    exact ⟨l, _, rfl, opens⟩
termination_by structural e => e

theorem Expr.opening_of_front {e : Expr} (legible : e.Legible) {rest ls : List Lexeme} {l : Lexeme}
    (same : e.lexemes ++ rest = l :: ls) : RuleTable.standard.opening l.kind = some e.opening := by
  obtain ⟨m, ms, front, opens⟩ := e.opens legible
  rw [front, List.cons_append] at same
  obtain ⟨rfl, _⟩ := List.cons.inj same
  exact opens

theorem Expr.opening_ne_unary : (e : Expr) → e.opening ≠ .unary
  | .bare _ | .name _ | .integer _ _ | .string _ _ | .boolean _ _ | .unary _ _ _ | .binary _ _ _ _
  | .index _ _ _ | .conditional _ _ _ _ | .function _ _ _ | .array _ _ => by
    rw [Expr.opening]
    decide
  | .call _ callee _ => callee.opening_ne_unary
termination_by structural e => e

theorem Expr.opening_eq {e f : Expr} (legible : e.Legible) (legibleToo : f.Legible)
    {rest more : List Lexeme} (same : e.lexemes ++ rest = f.lexemes ++ more) :
    e.opening = f.opening := by
  obtain ⟨l, ls, front, opens⟩ := f.opens legibleToo
  rw [front, List.cons_append] at same
  have opensToo := Expr.opening_of_front legible same
  rw [opens] at opensToo
  exact (Option.some.inj opensToo).symm

theorem Kind.apart_of_operatorLevel? {k : Kind} (known : k.operatorLevel?.isSome) :
    k ≠ .comma ∧ k ≠ .rightParen ∧ k ≠ .leftBracket ∧ k ≠ .elseWord ∧ k ≠ .leftParen := by
  cases k <;> first | decide | cases known

/-- Expressions at the front of fewer than so many lexemes can be read in one way only. -/
structure ReadableExprs (n : Nat) : Prop where
  expr : ∀ {e f : Expr} {rest more : List Lexeme}, (e.lexemes ++ rest).length < n →
    e.Legible → f.Legible → Concludes rest → Concludes more →
    e.lexemes ++ rest = f.lexemes ++ more → e.record = f.record ∧ rest = more

/-- Statements can be read in one way only as well. -/
structure Readable (n : Nat) : Prop extends ReadableExprs n where
  stmts : ∀ {ss ts : List Stmt} {rest more : List Lexeme},
    (Stmt.allLexemes ss ++ rest).length < n → Stmt.AllLegible ss → Stmt.AllLegible ts →
    Shuts rest → Shuts more → Stmt.allLexemes ss ++ rest = Stmt.allLexemes ts ++ more →
    Stmt.records ss = Stmt.records ts ∧ rest = more

theorem Name.texts_of_further {ns ms : List Name} {rest more : List Lexeme}
    (same : Name.furtherLexemes ns ++ sign ')' :: rest = Name.furtherLexemes ms ++ sign ')' :: more) :
    ns.map Name.record = ms.map Name.record ∧ rest = more := by
  induction ns generalizing ms with
  | nil =>
    cases ms with
    | nil => exact ⟨rfl, (List.cons.inj same).2⟩
    | cons m ms =>
      have kinds : Kind.rightParen = .comma := congrArg Lexeme.kind (List.cons.inj same).1
      cases kinds
  | cons n ns ih =>
    cases ms with
    | nil =>
      have kinds : Kind.comma = .rightParen := congrArg Lexeme.kind (List.cons.inj same).1
      cases kinds
    | cons m ms =>
      obtain ⟨named, behind⟩ := List.cons.inj (List.cons.inj same).2
      have text : n.text = m.text := String.toList_inj.1 (congrArg Lexeme.value named)
      obtain ⟨texts, rests⟩ := ih behind
      exact ⟨by rw [List.map_cons, List.map_cons, texts, Name.record, Name.record, text], rests⟩

theorem Name.texts_of_list {ns ms : List Name} {rest more : List Lexeme}
    (same : Name.listLexemes ns ++ sign ')' :: rest = Name.listLexemes ms ++ sign ')' :: more) :
    ns.map Name.record = ms.map Name.record ∧ rest = more := by
  cases ns with
  | nil =>
    cases ms with
    | nil => exact ⟨rfl, (List.cons.inj same).2⟩
    | cons m ms =>
      have kinds : Kind.rightParen = .identifier := congrArg Lexeme.kind (List.cons.inj same).1
      cases kinds
  | cons n ns =>
    cases ms with
    | nil =>
      have kinds : Kind.identifier = .rightParen := congrArg Lexeme.kind (List.cons.inj same).1
      cases kinds
    | cons m ms =>
      obtain ⟨named, behind⟩ := List.cons.inj same
      have text : n.text = m.text := String.toList_inj.1 (congrArg Lexeme.value named)
      obtain ⟨texts, rests⟩ := Name.texts_of_further behind
      exact ⟨by rw [List.map_cons, List.map_cons, texts, Name.record, Name.record, text], rests⟩

def Lexeme.ClosesItems (l : Lexeme) : Prop := l.kind = .rightParen ∨ l.kind = .rightBracket

theorem Lexeme.closesItems_paren : (sign ')').ClosesItems := Or.inl rfl

theorem Lexeme.closesItems_bracket : (sign ']').ClosesItems := Or.inr rfl

theorem Lexeme.ClosesItems.no_opening {l : Lexeme} (closes : l.ClosesItems) :
    RuleTable.standard.opening l.kind = none := by
  rcases closes with kind | kind <;> rw [kind] <;> rfl

theorem Expr.concludes_further (es : List Expr) {closing : Lexeme} (closes : closing.ClosesItems)
    (rest : List Lexeme) : Concludes (Expr.furtherLexemes es ++ closing :: rest) := by
  cases es with
  | nil =>
    rcases closes with kind | kind <;>
      exact concludes_cons (by rw [kind]; decide) (by rw [kind]; decide)
  | cons e es => exact concludes_cons (l := sign ',') (by decide) (by decide)

section

variable {n : Nat} (shorter : Readable n)

include shorter

theorem Expr.records_of_further {es fs : List Expr} {closing : Lexeme}
    (closes : closing.ClosesItems) {rest more : List Lexeme} (legible : Expr.AllLegible es)
    (legibleToo : Expr.AllLegible fs)
    (short : (Expr.furtherLexemes es ++ closing :: rest).length ≤ n)
    (same : Expr.furtherLexemes es ++ closing :: rest =
      Expr.furtherLexemes fs ++ closing :: more) :
    Expr.records es = Expr.records fs ∧ rest = more := by
  have other : closing.kind ≠ .comma := by
    rcases closes with kind | kind <;> rw [kind] <;> decide
  induction es generalizing fs with
  | nil =>
    cases fs with
    | nil => exact ⟨rfl, (List.cons.inj same).2⟩
    | cons f fs => exact absurd (congrArg Lexeme.kind (List.cons.inj same).1) other
  | cons e es ih =>
    cases fs with
    | nil => exact absurd (congrArg Lexeme.kind (List.cons.inj same).1).symm other
    | cons f fs =>
      rw [Expr.AllLegible] at legible legibleToo
      simp only [Expr.furtherLexemes, List.cons_append, List.append_assoc, List.cons.injEq,
        true_and, List.length_cons] at same short
      obtain ⟨first, behind⟩ := shorter.expr (by omega) legible.1 legibleToo.1
        (Expr.concludes_further es closes rest) (Expr.concludes_further fs closes more) same
      rw [List.length_append] at short
      obtain ⟨others, rests⟩ := ih legible.2 legibleToo.2 (by omega) behind
      exact ⟨by rw [Expr.records, Expr.records, first, others], rests⟩

theorem Expr.records_of_items {es fs : List Expr} {closing : Lexeme}
    (closes : closing.ClosesItems) {rest more : List Lexeme} (legible : Expr.AllLegible es)
    (legibleToo : Expr.AllLegible fs)
    (short : (Expr.listLexemes es ++ closing :: rest).length < n)
    (same : Expr.listLexemes es ++ closing :: rest = Expr.listLexemes fs ++ closing :: more) :
    Expr.records es = Expr.records fs ∧ rest = more := by
  cases es with
  | nil =>
    cases fs with
    | nil => exact ⟨rfl, (List.cons.inj same).2⟩
    | cons f fs =>
      rw [Expr.AllLegible] at legibleToo
      rw [Expr.listLexemes, Expr.listLexemes, List.append_assoc] at same
      have opens := Expr.opening_of_front legibleToo.1 same.symm
      rw [closes.no_opening] at opens
      cases opens
  | cons e es =>
    rw [Expr.AllLegible] at legible
    cases fs with
    | nil =>
      rw [Expr.listLexemes, Expr.listLexemes, List.append_assoc] at same
      have opens := Expr.opening_of_front legible.1 same
      rw [closes.no_opening] at opens
      cases opens
    | cons f fs =>
      rw [Expr.AllLegible] at legibleToo
      simp only [Expr.listLexemes, List.append_assoc] at same short
      obtain ⟨first, behind⟩ := shorter.expr short legible.1 legibleToo.1
        (Expr.concludes_further es closes rest) (Expr.concludes_further fs closes more) same
      rw [List.length_append] at short
      obtain ⟨others, rests⟩ :=
        Expr.records_of_further shorter closes legible.2 legibleToo.2 (by omega) behind
      exact ⟨by rw [Expr.records, Expr.records, first, others], rests⟩

theorem Block.record_of_front {b c : Block} {rest more : List Lexeme} (legible : b.Legible)
    (legibleToo : c.Legible) (short : (b.lexemes ++ rest).length ≤ n)
    (same : b.lexemes ++ rest = c.lexemes ++ more) : b.record = c.record ∧ rest = more := by
  obtain ⟨_, ss⟩ := b
  obtain ⟨_, ts⟩ := c
  rw [Block.Legible] at legible legibleToo
  simp only [Block.lexemes, List.cons_append, List.append_assoc, List.nil_append, List.cons.injEq,
    true_and, List.length_cons] at same short
  obtain ⟨inside, behind⟩ := shorter.stmts (by omega) legible legibleToo
    (shuts_cons (l := sign '\x7d') rfl) (shuts_cons (l := sign '\x7d') rfl) same
  exact ⟨by rw [Block.record, Block.record, inside], (List.cons.inj behind).2⟩

theorem Expr.operand_is_no_item {left : Expr} (legible : left.Legible) {l : Lexeme}
    {rest more : List Lexeme} {es : List Expr} (other : l.kind ≠ .comma) (inner : l.kind ≠ .rightParen)
    (concludes : Concludes (l :: rest)) (legibleToo : Expr.AllLegible es)
    (short : (left.lexemes ++ l :: rest).length < n) :
    left.lexemes ++ l :: rest ≠ Expr.listLexemes es ++ sign ')' :: more := by
  intro same
  cases es with
  | nil => exact nomatch (Expr.opening_of_front legible same)
  | cons e es =>
    rw [Expr.AllLegible] at legibleToo
    simp only [Expr.listLexemes, List.append_assoc] at same
    obtain ⟨_, behind⟩ := shorter.expr short legible legibleToo.1 concludes
      (Expr.concludes_further es closesItems_paren more) same
    cases es with
    | nil => exact inner (congrArg Lexeme.kind (List.cons.inj behind).1)
    | cons f fs => exact other (congrArg Lexeme.kind (List.cons.inj behind).1)

theorem Expr.no_group : (e : Expr) → e.Legible → ∀ {rest : List Lexeme} {es : List Expr}
    {more : List Lexeme}, (e.lexemes ++ rest).length ≤ n → Expr.AllLegible es →
      e.lexemes ++ rest ≠ Expr.groupLexemes es ++ more
  | .bare _, legible, _, _, _, _, _, _ => by simp at legible
  | .name _, legible, _, _, _, _, _, same | .integer _ _, legible, _, _, _, _, _, same
  | .string _ _, legible, _, _, _, _, _, same | .boolean _ _, legible, _, _, _, _, _, same
  | .conditional _ _ _ _, legible, _, _, _, _, _, same
  | .function _ _ _, legible, _, _, _, _, _, same | .array _ _, legible, _, _, _, _, _, same =>
    nomatch (Expr.opening_of_front legible same)
  | .call _ callee arguments, legible, rest, es, more, short, legibleToo, same => by
    rw [Expr.Legible] at legible
    rw [Expr.lexemes, List.append_assoc] at same short
    exact callee.no_group legible.1 short legibleToo same
  | .unary token operator operand, legible, rest, es, more, short, legibleToo, same => by
    rw [Expr.Legible] at legible
    simp only [Expr.lexemes, Expr.groupLexemes, List.cons_append, List.append_assoc,
      List.cons.injEq, true_and] at same
    cases es with
    | nil =>
      have kinds : token.kind = .rightParen := congrArg Lexeme.kind (List.cons.inj same).1
      rcases legible.1 with kind | kind <;> rw [kind] at kinds <;> cases kinds
    | cons e es =>
      rw [Expr.AllLegible] at legibleToo
      rw [Expr.listLexemes, List.append_assoc] at same
      have opens := Expr.opening_of_front legibleToo.1 same.symm
      rcases legible.1 with kind | kind <;> rw [kind] at opens <;>
        exact e.opening_ne_unary (Option.some.inj opens).symm
  | .binary token left operator right, legible, rest, es, more, short, legibleToo, same => by
    rw [Expr.Legible] at legible
    obtain ⟨known, _, first, _⟩ := legible
    obtain ⟨comma, inner, _, noElse, group⟩ := Kind.apart_of_operatorLevel? known
    simp only [Expr.lexemes, Expr.groupLexemes, List.cons_append, List.append_assoc,
      List.cons.injEq, true_and, List.length_cons, List.nil_append] at same short
    exact Expr.operand_is_no_item shorter first comma inner (concludes_cons noElse group) legibleToo
      (by omega) same
  | .index token collection position, legible, rest, es, more, short, legibleToo, same => by
    rw [Expr.Legible] at legible
    simp only [Expr.lexemes, Expr.groupLexemes, List.cons_append, List.append_assoc,
      List.cons.injEq, true_and, List.length_cons, List.nil_append] at same short
    exact Expr.operand_is_no_item shorter legible.1 (l := sign '[') (by decide) (by decide)
      (concludes_cons (by decide) (by decide)) legibleToo (by omega) same
termination_by structural e => e

/-- At the front of one text of at most so many lexemes these two are the same expression. -/
def Expr.Coincide (n : Nat) (e f : Expr) : Prop :=
  ∀ rest more : List Lexeme, (e.lexemes ++ rest).length ≤ n → Unalternative rest →
    Unalternative more → e.lexemes ++ rest = f.lexemes ++ more → e.record = f.record ∧ rest = more

omit shorter in
theorem Expr.Coincide.symm {e f : Expr} (coincide : Expr.Coincide n e f) : Expr.Coincide n f e := by
  intro rest more short noElse noElseToo same
  obtain ⟨records, rests⟩ := coincide more rest (same ▸ short) noElseToo noElse same.symm
  exact ⟨records.symm, rests.symm⟩

variable {t u : Token}

omit shorter in
theorem coincide_name (a b : Name) : Expr.Coincide n (.name a) (.name b) := by
  intro rest more _ _ _ same
  simp only [Expr.lexemes, List.cons_append, List.nil_append] at same
  obtain ⟨named, behind⟩ := List.cons.inj same
  have text : a.text = b.text := String.toList_inj.1 (congrArg Lexeme.value named)
  exact ⟨by rw [Expr.record, Expr.record, Name.record, Name.record, text], behind⟩

omit shorter in
theorem coincide_integer {v w : Int} (legible : (Expr.integer t v).Legible)
    (legibleToo : (Expr.integer u w).Legible) : Expr.Coincide n (.integer t v) (.integer u w) := by
  intro rest more _ _ _ same
  rw [Expr.Legible] at legible legibleToo
  simp only [Expr.lexemes, List.cons_append, List.nil_append] at same
  obtain ⟨numeral, behind⟩ := List.cons.inj same
  have text : t.text = u.text := String.toList_inj.1 (congrArg Lexeme.value numeral)
  obtain ⟨_, first, reads, rfl⟩ := legible
  obtain ⟨_, second, readsToo, rfl⟩ := legibleToo
  rw [text, readsToo] at reads
  exact ⟨by rw [Expr.record, Expr.record, Option.some.inj reads], behind⟩

omit shorter in
theorem coincide_string (v w : String) : Expr.Coincide n (.string t v) (.string u w) := by
  intro rest more _ _ _ same
  simp only [Expr.lexemes, List.cons_append, List.nil_append] at same
  obtain ⟨quoted, behind⟩ := List.cons.inj same
  have text : v = w := String.toList_inj.1 (congrArg Lexeme.value quoted)
  exact ⟨by rw [Expr.record, Expr.record, text], behind⟩

omit shorter in
theorem coincide_boolean (v w : Bool) : Expr.Coincide n (.boolean t v) (.boolean u w) := by
  intro rest more _ _ _ same
  simp only [Expr.lexemes, List.cons_append, List.nil_append] at same
  obtain ⟨word, behind⟩ := List.cons.inj same
  have truth : v = w := by
    have kinds := congrArg Lexeme.kind word
    cases v <;> cases w <;> first | rfl | cases kinds
  exact ⟨by rw [Expr.record, Expr.record, truth], behind⟩

theorem coincide_unary {o p : String} {a b : Expr} (legible : (Expr.unary t o a).Legible)
    (legibleToo : (Expr.unary u p b).Legible) : Expr.Coincide n (.unary t o a) (.unary u p b) := by
  intro rest more short _ _ same
  rw [Expr.Legible] at legible legibleToo
  simp only [Expr.lexemes, List.cons_append, List.append_assoc, List.nil_append, List.cons.injEq,
    true_and, List.length_cons] at same short
  obtain ⟨operator, inside⟩ := same
  have text : o = p := String.toList_inj.1 (congrArg Lexeme.value operator)
  obtain ⟨operand, behind⟩ := shorter.expr (by omega) legible.2.2 legibleToo.2.2
    (concludes_cons (l := sign ')') (by decide) (by decide))
    (concludes_cons (l := sign ')') (by decide) (by decide)) inside
  exact ⟨by rw [Expr.record, Expr.record, text, operand], (List.cons.inj behind).2⟩

theorem coincide_binary {o p : String} {a b c d : Expr} (legible : (Expr.binary t a o b).Legible)
    (legibleToo : (Expr.binary u c p d).Legible) :
    Expr.Coincide n (.binary t a o b) (.binary u c p d) := by
  intro rest more short _ _ same
  rw [Expr.Legible] at legible legibleToo
  obtain ⟨known, _, first, second⟩ := legible
  obtain ⟨knownToo, _, firstToo, secondToo⟩ := legibleToo
  obtain ⟨_, _, _, noElse, group⟩ := Kind.apart_of_operatorLevel? known
  obtain ⟨_, _, _, noElseToo, groupToo⟩ := Kind.apart_of_operatorLevel? knownToo
  simp only [Expr.lexemes, List.cons_append, List.append_assoc, List.nil_append, List.cons.injEq,
    true_and, List.length_cons] at same short
  obtain ⟨left, behind⟩ := shorter.expr (by omega) first firstToo (concludes_cons noElse group)
    (concludes_cons noElseToo groupToo) same
  obtain ⟨operator, inside⟩ := List.cons.inj behind
  have text : o = p := String.toList_inj.1 (congrArg Lexeme.value operator)
  rw [List.length_append, List.length_cons] at short
  obtain ⟨right, last⟩ := shorter.expr (by omega) second secondToo
    (concludes_cons (l := sign ')') (by decide) (by decide))
    (concludes_cons (l := sign ')') (by decide) (by decide)) inside
  exact ⟨by rw [Expr.record, Expr.record, left, text, right], (List.cons.inj last).2⟩

theorem coincide_index {a b c d : Expr} (legible : (Expr.index t a b).Legible)
    (legibleToo : (Expr.index u c d).Legible) : Expr.Coincide n (.index t a b) (.index u c d) := by
  intro rest more short _ _ same
  rw [Expr.Legible] at legible legibleToo
  simp only [Expr.lexemes, List.cons_append, List.append_assoc, List.nil_append, List.cons.injEq,
    true_and, List.length_cons] at same short
  obtain ⟨collection, behind⟩ := shorter.expr (by omega) legible.1 legibleToo.1
    (concludes_cons (l := sign '[') (by decide) (by decide))
    (concludes_cons (l := sign '[') (by decide) (by decide)) same
  have inside := (List.cons.inj behind).2
  rw [List.length_append, List.length_cons] at short
  obtain ⟨position, last⟩ := shorter.expr (by omega) legible.2 legibleToo.2
    (concludes_cons (l := sign ']') (by decide) (by decide))
    (concludes_cons (l := sign ']') (by decide) (by decide)) inside
  exact ⟨by rw [Expr.record, Expr.record, collection, position],
    (List.cons.inj (List.cons.inj last).2).2⟩

omit shorter in
theorem coincide_unary_other {o : String} {a left f : Expr} {l : Lexeme} {ls : List Lexeme}
    (legible : (Expr.unary t o a).Legible) (legibleToo : left.Legible)
    (shown : f.lexemes = sign '(' :: (left.lexemes ++ l :: ls)) :
    Expr.Coincide n (.unary t o a) f := by
  intro rest more _ _ _ same
  rw [Expr.Legible] at legible
  simp only [Expr.lexemes, shown, List.cons_append, List.append_assoc, List.cons.injEq,
    true_and] at same
  have opens := Expr.opening_of_front legibleToo same.symm
  rcases legible.1 with kind | kind <;> rw [kind] at opens <;>
    exact absurd (Option.some.inj opens).symm left.opening_ne_unary

theorem coincide_binary_index {o : String} {a b c d : Expr} (legible : (Expr.binary t a o b).Legible)
    (legibleToo : (Expr.index u c d).Legible) : Expr.Coincide n (.binary t a o b) (.index u c d) := by
  intro rest more short _ _ same
  rw [Expr.Legible] at legible
  rw [Expr.Legible] at legibleToo
  obtain ⟨known, _, first, _⟩ := legible
  obtain ⟨_, _, bracket, noElse, group⟩ := Kind.apart_of_operatorLevel? known
  simp only [Expr.lexemes, List.cons_append, List.append_assoc, List.nil_append, List.cons.injEq,
    true_and, List.length_cons] at same short
  obtain ⟨_, behind⟩ := shorter.expr (by omega) first legibleToo.1 (concludes_cons noElse group)
    (concludes_cons (l := sign '[') (by decide) (by decide)) same
  exact absurd (congrArg Lexeme.kind (List.cons.inj behind).1) bracket

theorem coincide_array {es fs : List Expr} (legible : (Expr.array t es).Legible)
    (legibleToo : (Expr.array u fs).Legible) : Expr.Coincide n (.array t es) (.array u fs) := by
  intro rest more short _ _ same
  rw [Expr.Legible] at legible legibleToo
  simp only [Expr.lexemes, List.cons_append, List.append_assoc, List.nil_append, List.cons.injEq,
    true_and, List.length_cons] at same short
  obtain ⟨elements, behind⟩ := Expr.records_of_items shorter closesItems_bracket
    legible legibleToo (by omega) same
  exact ⟨by rw [Expr.record, Expr.record, elements], behind⟩

theorem coincide_function {ns ms : List Name} {b c : Block}
    (legible : (Expr.function t ns b).Legible) (legibleToo : (Expr.function u ms c).Legible) :
    Expr.Coincide n (.function t ns b) (.function u ms c) := by
  intro rest more short _ _ same
  rw [Expr.Legible] at legible legibleToo
  simp only [Expr.lexemes, List.cons_append, List.append_assoc, List.cons.injEq, true_and,
    List.length_cons, List.length_append] at same short
  obtain ⟨names, inside⟩ := Name.texts_of_list same
  obtain ⟨body, behind⟩ := Block.record_of_front shorter legible.2.2 legibleToo.2.2
    (by rw [List.length_append]; omega) inside
  exact ⟨by rw [Expr.record, Expr.record, names, body], behind⟩

theorem Expr.records_of_condition {a c : Expr} {b d : Block} {rest more : List Lexeme}
    (first : a.Legible) (second : b.Legible) (firstToo : c.Legible) (secondToo : d.Legible)
    (short : (a.lexemes ++ (b.lexemes ++ rest)).length < n)
    (same : a.lexemes ++ (b.lexemes ++ rest) = c.lexemes ++ (d.lexemes ++ more)) :
    a.record = c.record ∧ b.record = d.record ∧ rest = more := by
  have braced : ∀ (b : Block) (rest : List Lexeme), Concludes (b.lexemes ++ rest) := by
    rintro ⟨_, ss⟩ rest
    exact concludes_cons (l := sign '\x7b') (by decide) (by decide)
  obtain ⟨condition, behind⟩ :=
    shorter.expr short first firstToo (braced b rest) (braced d more) same
  rw [List.length_append] at short
  obtain ⟨consequence, last⟩ :=
    Block.record_of_front shorter second secondToo (by omega) behind
  exact ⟨condition, consequence, last⟩

theorem coincide_conditional {a c : Expr} {b d : Block} {x y : Option Block}
    (legible : (Expr.conditional t a b x).Legible) (legibleToo : (Expr.conditional u c d y).Legible) :
    Expr.Coincide n (.conditional t a b x) (.conditional u c d y) := by
  intro rest more short noElse noElseToo same
  cases x with
  | none =>
    rw [Expr.Legible] at legible
    simp only [Expr.lexemes, List.cons_append, List.append_assoc, List.length_cons] at same short
    cases y with
    | none =>
      rw [Expr.Legible] at legibleToo
      simp only [Expr.lexemes, List.cons_append, List.append_assoc, List.cons.injEq,
        true_and] at same
      obtain ⟨condition, consequence, behind⟩ := Expr.records_of_condition shorter legible.1
        legible.2 legibleToo.1 legibleToo.2 (by omega) same
      exact ⟨by rw [Expr.record, Expr.record, condition, consequence], behind⟩
    | some y =>
      rw [Expr.Legible] at legibleToo
      simp only [Expr.lexemes, List.cons_append, List.append_assoc, List.cons.injEq,
        true_and] at same
      obtain ⟨_, _, behind⟩ := Expr.records_of_condition shorter legible.1
        legible.2 legibleToo.1 legibleToo.2.1 (by omega) same
      rw [behind] at noElse
      exact absurd rfl (noElse (word "else") rfl)
  | some x =>
    rw [Expr.Legible] at legible
    simp only [Expr.lexemes, List.cons_append, List.append_assoc, List.length_cons] at same short
    cases y with
    | none =>
      rw [Expr.Legible] at legibleToo
      simp only [Expr.lexemes, List.cons_append, List.append_assoc, List.cons.injEq,
        true_and] at same
      obtain ⟨_, _, behind⟩ := Expr.records_of_condition shorter legible.1
        legible.2.1 legibleToo.1 legibleToo.2 (by omega) same
      rw [← behind] at noElseToo
      exact absurd rfl (noElseToo (word "else") rfl)
    | some y =>
      rw [Expr.Legible] at legibleToo
      simp only [Expr.lexemes, List.cons_append, List.append_assoc, List.cons.injEq,
        true_and] at same
      obtain ⟨condition, consequence, behind⟩ := Expr.records_of_condition shorter legible.1
        legible.2.1 legibleToo.1 legibleToo.2.1 (by omega) same
      have inside := (List.cons.inj behind).2
      simp only [List.length_append, List.length_cons] at short
      obtain ⟨alternative, last⟩ := Block.record_of_front shorter legible.2.2 legibleToo.2.2
        (by rw [List.length_append]; omega) inside
      exact ⟨by rw [Expr.record, Expr.record, condition, consequence, alternative], last⟩

def Expr.isCall : Expr → Bool
  | .call _ _ _ => true
  | _ => false

/-- Expressions that are no calls coincide. -/
theorem Expr.coincide {e f : Expr} (legible : e.Legible) (legibleToo : f.Legible)
    (plain : e.isCall = false) (plainToo : f.isCall = false) (openings : e.opening = f.opening) :
    Expr.Coincide n e f := by
  cases e with
  | bare _ => simp at legible
  | name a =>
    cases f with
    | name b => exact coincide_name a b
    | bare _ => simp at legibleToo
    | call _ _ _ => cases plainToo
    | _ => simp [Expr.opening] at openings
  | integer t v =>
    cases f with
    | integer u w => exact coincide_integer legible legibleToo
    | call _ _ _ => cases plainToo
    | _ => simp [Expr.opening] at openings
  | string t v =>
    cases f with
    | string u w => exact coincide_string v w
    | call _ _ _ => cases plainToo
    | _ => simp [Expr.opening] at openings
  | boolean t v =>
    cases f with
    | boolean u w => exact coincide_boolean v w
    | call _ _ _ => cases plainToo
    | _ => simp [Expr.opening] at openings
  | unary t o a =>
    cases f with
    | unary u p b => exact coincide_unary shorter legible legibleToo
    | binary u c p d =>
      rw [Expr.Legible] at legibleToo
      exact coincide_unary_other legible legibleToo.2.2.1 rfl
    | index u c d =>
      rw [Expr.Legible] at legibleToo
      exact coincide_unary_other legible legibleToo.1 rfl
    | call _ _ _ => cases plainToo
    | _ => simp [Expr.opening] at openings
  | binary t a o b =>
    cases f with
    | unary u p c =>
      rw [Expr.Legible] at legible
      exact Expr.Coincide.symm (coincide_unary_other legibleToo legible.2.2.1 rfl)
    | binary u c p d => exact coincide_binary shorter legible legibleToo
    | index u c d => exact coincide_binary_index shorter legible legibleToo
    | call _ _ _ => cases plainToo
    | _ => simp [Expr.opening] at openings
  | index t a b =>
    cases f with
    | unary u p c =>
      rw [Expr.Legible] at legible
      exact Expr.Coincide.symm (coincide_unary_other legibleToo legible.1 rfl)
    | binary u c p d => exact Expr.Coincide.symm (coincide_binary_index shorter legibleToo legible)
    | index u c d => exact coincide_index shorter legible legibleToo
    | call _ _ _ => cases plainToo
    | _ => simp [Expr.opening] at openings
  | conditional t a b x =>
    cases f with
    | conditional u c d y => exact coincide_conditional shorter legible legibleToo
    | call _ _ _ => cases plainToo
    | _ => simp [Expr.opening] at openings
  | function t ns b =>
    cases f with
    | function u ms c => exact coincide_function shorter legible legibleToo
    | call _ _ _ => cases plainToo
    | _ => simp [Expr.opening] at openings
  | call _ _ _ => cases plain
  | array t es =>
    cases f with
    | array u fs => exact coincide_array shorter legible legibleToo
    | call _ _ _ => cases plainToo
    | _ => simp [Expr.opening] at openings

end

end PrattFrontEnd
