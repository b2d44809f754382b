import PrattFrontEnd.Proofs.Rendering.Legibility
import PrattFrontEnd.Proofs.Rendering.Safety
import PrattFrontEnd.Proofs.Syntax.Sameness

/-!
Tokens with the lexemes of a rendering derive the tree that was rendered, up to the tokens it keeps.
Every expression is rendered so that it holds together: it is derived as an operand of a call or an
index, whatever follows it. Main statement: `Stmt.returns_list`.
-/
namespace PrattFrontEnd

open Lexeme

theorem Level.rank_lt_applied {k : Kind} {l : Level} (known : k.operatorLevel? = some l) :
    l.rank < applied.rank := by
  cases k <;> cases known <;> decide

theorem Token.lexeme_eq_iff {t : Token} {k : Kind} {text : String} :
    t.lexeme = ⟨k, text.toList⟩ ↔ t.kind = k ∧ t.text = text := by
  rw [Token.lexeme, Lexeme.mk.injEq, String.toList_inj]

def Phrase.Spans (phrase : Phrase) (ts : List Token) : Prop :=
  ∀ rest, Nonempty (Derivation phrase (ts ++ rest) rest)

/-- These tokens make up a tree with the same record as this one. Tokens that make up an expression
in parentheses do so, more precisely, between an opening and a closing one. -/
def Expr.Rederives (e : Expr) (ts : List Token) : Prop :=
  ∃ e' : Expr, e'.record = e.record ∧ (Phrase.expr .applied e').Spans ts ∧
    (e.parenthesised = true →
      ∃ opened inside closed, opened.kind = .leftParen ∧ closed.kind = .rightParen ∧
        ts = opened :: (inside ++ [closed]) ∧ (Phrase.expr .equality e').Spans inside)

def Block.Rederives (b : Block) (ts : List Token) : Prop :=
  ∃ b' : Block, b'.record = b.record ∧ (Phrase.block b').Spans ts

/-- An expression statement counts on what follows it, the others end themselves. -/
def Stmt.Rederives (s : Stmt) (ts : List Token) : Prop :=
  ∃ s' : Stmt, s'.record = s.record ∧
    ∀ rest, (s.isExpression = true → ∀ t ∈ rest.head?, t.kind.prolongs = false) →
      Nonempty (Derivation (.stmt s') (ts ++ rest) rest)

def Expr.ListRederives (es : List Expr) (ts : List Token) : Prop :=
  ∃ es', Expr.records es' = Expr.records es ∧ (Phrase.items es').Spans ts

def Expr.FurtherRederives (es : List Expr) (ts : List Token) : Prop :=
  ∃ es', Expr.records es' = Expr.records es ∧ (Phrase.furtherItems es').Spans ts

def Stmt.ListRederives (ss : List Stmt) (ts : List Token) : Prop :=
  ∃ ss', Stmt.records ss' = Stmt.records ss ∧
    ∀ rest, (∀ t ∈ rest.head?, t.kind.prolongs = false) →
      Nonempty (Derivation (.stmts ss') (ts ++ rest) rest)

section

variable {e : Expr} {b : Block} {ts us : List Token}

theorem Phrase.Spans.loosen {l m : Level} (spans : (Phrase.expr m e).Spans ts)
    (looser : l.rank ≤ m.rank) : (Phrase.expr l e).Spans ts := by
  intro rest
  obtain ⟨d⟩ := spans rest
  exact d.loosen looser

theorem rederives_of_inside {e : Expr} (e' : Expr) {opened closed : Token} {inside : List Token}
    (same : e'.record = e.record) (opens : opened.kind = .leftParen)
    (closes : closed.kind = .rightParen) (spans : (Phrase.expr .equality e').Spans inside) :
    e.Rederives (opened :: (inside ++ [closed])) := by
  refine ⟨e', same, ?_, fun _ => ⟨opened, inside, closed, opens, closes, rfl, spans⟩⟩
  intro rest
  obtain ⟨d⟩ := spans (closed :: rest)
  rw [List.cons_append, List.append_assoc]
  exact ⟨.tighter rfl (.group opened closed opens closes d)⟩

theorem rederives_of_primary {e : Expr} (e' : Expr) (plain : e.parenthesised = false)
    (same : e'.record = e.record)
    (d : ∀ rest, Nonempty (Derivation (.expr .primary e') (ts ++ rest) rest)) : e.Rederives ts := by
  refine ⟨e', same, ?_, ?_⟩
  · intro rest
    obtain ⟨d⟩ := d rest
    exact ⟨.tighter rfl d⟩
  · intro shown
    rw [plain] at shown
    cases shown

theorem rederives_unary {token op opened closed : Token} {operator : String} {operand : Expr}
    (opens : opened.kind = .leftParen) (closes : closed.kind = .rightParen)
    (known : op.kind = .bang ∨ op.kind = .minus) (shown : op.text = operator)
    (inner : operand.Rederives us) :
    (Expr.unary token operator operand).Rederives (opened :: (op :: us ++ [closed])) := by
  obtain ⟨e', same, spans, _⟩ := inner
  refine rederives_of_inside (.unary op op.text e') ?_ opens closes ?_
  · rw [Expr.record, Expr.record, same, shown]
  · intro rest
    obtain ⟨d⟩ := spans.loosen (l := .unary) (by decide) rest
    exact Derivation.loosen (m := .unary) (by decide) (.unary op known d)

theorem rederives_binary {token op opened closed : Token} {left right : Expr} {operator : String}
    (opens : opened.kind = .leftParen) (closes : closed.kind = .rightParen)
    (known : op.kind.operatorLevel?.isSome) (shown : op.text = operator)
    (first : left.Rederives ts) (second : right.Rederives us) :
    (Expr.binary token left operator right).Rederives
      (opened :: (ts ++ op :: (us ++ [closed]))) := by
  obtain ⟨a, sameLeft, spansLeft, _⟩ := first
  obtain ⟨b, sameRight, spansRight, _⟩ := second
  obtain ⟨l, level⟩ := Option.isSome_iff_exists.1 known
  have applied := Level.rank_lt_applied level
  obtain ⟨m, below⟩ := Level.tighter_of_rank_lt applied
  have step := Level.rank_of_tighter below
  have split : ts ++ op :: (us ++ [closed]) = (ts ++ op :: us) ++ [closed] := by simp
  rw [split]
  refine rederives_of_inside (.binary op a op.text b) ?_ opens closes ?_
  · rw [Expr.record, Expr.record, sameLeft, sameRight, shown]
  · intro rest
    obtain ⟨dLeft⟩ := spansLeft.loosen (Nat.le_of_lt applied) (op :: us ++ rest)
    obtain ⟨dRight⟩ := spansRight.loosen (l := m) (by omega) rest
    rw [List.append_assoc]
    exact Derivation.loosen (Nat.zero_le _) (.binary op level below dLeft dRight)

theorem rederives_index {token op opened closed shut : Token} {collection position : Expr}
    (opens : opened.kind = .leftParen) (closes : closed.kind = .rightParen)
    (bracket : op.kind = .leftBracket) (shuts : shut.kind = .rightBracket)
    (first : collection.Rederives ts) (second : position.Rederives us) :
    (Expr.index token collection position).Rederives
      (opened :: (ts ++ op :: (us ++ [shut, closed]))) := by
  obtain ⟨a, sameFirst, spansFirst, _⟩ := first
  obtain ⟨i, sameSecond, spansSecond, _⟩ := second
  have split : ts ++ op :: (us ++ [shut, closed]) = (ts ++ op :: (us ++ [shut])) ++ [closed] := by
    simp
  rw [split]
  refine rederives_of_inside (.index op a i) ?_ opens closes ?_
  · rw [Expr.record, Expr.record, sameFirst, sameSecond]
  · intro rest
    obtain ⟨dFirst⟩ := spansFirst (op :: (us ++ shut :: rest))
    obtain ⟨dSecond⟩ := spansSecond.loosen (l := .equality) (by decide) (shut :: rest)
    have whole := Derivation.loosen (l := .equality) (by decide)
      (.index op shut bracket shuts dFirst dSecond)
    simpa using whole

theorem rederives_conditional {token word : Token} {condition : Expr} {consequence : Block}
    (kind : word.kind = .ifWord) (shown : condition.parenthesised = true)
    (first : condition.Rederives ts) (second : consequence.Rederives us) :
    (Expr.conditional token condition consequence none).Rederives (word :: (ts ++ us)) := by
  obtain ⟨c, sameFirst, _, inside⟩ := first
  obtain ⟨b, sameSecond, spans⟩ := second
  obtain ⟨opened, inner, closed, opens, closes, rfl, spansInner⟩ := inside shown
  refine rederives_of_primary (.conditional word c b none) rfl ?_ ?_
  · rw [Expr.record, Expr.record, sameFirst, sameSecond]
  · intro rest
    obtain ⟨dFirst⟩ := spansInner (closed :: (us ++ rest))
    obtain ⟨dSecond⟩ := spans rest
    have whole := Derivation.conditional word opened closed kind opens closes dFirst dSecond
    simpa using Nonempty.intro whole

theorem rederives_alternative {token word other : Token} {condition : Expr}
    {consequence alternative : Block} {vs : List Token} (kind : word.kind = .ifWord)
    (otherwise : other.kind = .elseWord) (shown : condition.parenthesised = true)
    (first : condition.Rederives ts) (second : consequence.Rederives us)
    (third : alternative.Rederives vs) :
    (Expr.conditional token condition consequence (some alternative)).Rederives
      (word :: (ts ++ (us ++ other :: vs))) := by
  obtain ⟨c, sameFirst, _, inside⟩ := first
  obtain ⟨b, sameSecond, spansSecond⟩ := second
  obtain ⟨d, sameThird, spansThird⟩ := third
  obtain ⟨opened, inner, closed, opens, closes, rfl, spansInner⟩ := inside shown
  refine rederives_of_primary (.conditional word c b (some d)) rfl ?_ ?_
  · rw [Expr.record, Expr.record, sameFirst, sameSecond, sameThird]
  · intro rest
    obtain ⟨dFirst⟩ := spansInner (closed :: (us ++ other :: (vs ++ rest)))
    obtain ⟨dSecond⟩ := spansSecond (other :: (vs ++ rest))
    obtain ⟨dThird⟩ := spansThird rest
    have whole := Derivation.alternative word opened closed other kind opens closes otherwise
      dFirst dSecond dThird
    simpa using Nonempty.intro whole

theorem rederives_call {token opened closed : Token} {callee : Expr} {arguments : List Expr}
    (opens : opened.kind = .leftParen) (closes : closed.kind = .rightParen)
    (first : callee.Rederives ts) (second : Expr.ListRederives arguments us) :
    (Expr.call token callee arguments).Rederives (ts ++ opened :: (us ++ [closed])) := by
  obtain ⟨f, sameFirst, spansFirst, _⟩ := first
  obtain ⟨es, sameSecond, spansSecond⟩ := second
  refine ⟨.call opened f es, ?_, ?_, ?_⟩
  · rw [Expr.record, Expr.record, sameFirst, sameSecond]
  · intro rest
    obtain ⟨dFirst⟩ := spansFirst (opened :: (us ++ closed :: rest))
    obtain ⟨dSecond⟩ := spansSecond (closed :: rest)
    have whole := Derivation.call opened closed opens closes dFirst dSecond
    simpa using Nonempty.intro whole
  · intro shown
    cases shown

theorem rederives_array {token opened closed : Token} {elements : List Expr}
    (opens : opened.kind = .leftBracket) (closes : closed.kind = .rightBracket)
    (listed : Expr.ListRederives elements us) :
    (Expr.array token elements).Rederives (opened :: (us ++ [closed])) := by
  obtain ⟨es, same, spans⟩ := listed
  refine rederives_of_primary (.array opened es) rfl ?_ ?_
  · rw [Expr.record, Expr.record, same]
  · intro rest
    obtain ⟨d⟩ := spans (closed :: rest)
    have whole := Derivation.array opened closed opens closes d
    simpa using Nonempty.intro whole

theorem rederives_function {token word opened closed : Token} {parameters names : List Name}
    {body : Block} (kind : word.kind = .functionWord) (opens : opened.kind = .leftParen)
    (closes : closed.kind = .rightParen)
    (named : names.map Name.record = parameters.map Name.record)
    (spansNames : (Phrase.names names).Spans ts) (block : body.Rederives us) :
    (Expr.function token parameters body).Rederives (word :: opened :: (ts ++ closed :: us)) := by
  obtain ⟨b, same, spans⟩ := block
  refine rederives_of_primary (.function word names b) rfl ?_ ?_
  · rw [Expr.record, Expr.record, named, same]
  · intro rest
    obtain ⟨dNames⟩ := spansNames (closed :: (us ++ rest))
    obtain ⟨dBlock⟩ := spans rest
    have whole := Derivation.function word opened closed kind opens closes dNames dBlock
    simpa using Nonempty.intro whole

theorem rederives_integer {token t : Token} {value : Int}
    (legible : (Expr.integer token value).Legible)
    (spelled : t.lexeme = ⟨.integer, token.text.toList⟩) :
    (Expr.integer token value).Rederives [t] := by
  obtain ⟨kind, text⟩ := Token.lexeme_eq_iff.1 spelled
  rw [Expr.Legible] at legible
  obtain ⟨_, n, read, rfl⟩ := legible
  rw [← text] at read
  obtain ⟨digits, bound, rfl⟩ := Expression.integerValue?_eq_some_iff.1 read
  exact rederives_of_primary (.integer t _) rfl rfl fun rest => ⟨.integer t kind digits bound⟩

theorem rederives_boolean {token t : Token} {value : Bool}
    (spelled : t.lexeme = word (if value then "true" else "false")) :
    (Expr.boolean token value).Rederives [t] := by
  have kind := congrArg Lexeme.kind spelled
  cases value with
  | true => exact rederives_of_primary (.boolean t true) rfl rfl fun rest => ⟨.yes t kind⟩
  | false => exact rederives_of_primary (.boolean t false) rfl rfl fun rest => ⟨.no t kind⟩

theorem Name.rederives_further (names : List Name)
    (spelled : ts.map Token.lexeme = Name.furtherLexemes names) :
    ∃ ns, ns.map Name.record = names.map Name.record ∧ (Phrase.furtherNames ns).Spans ts := by
  induction names generalizing ts with
  | nil =>
    have none : ts = [] := List.map_eq_nil_iff.1 spelled
    exact ⟨[], rfl, fun rest => ⟨none ▸ .lastName⟩⟩
  | cons n names ih =>
    rw [Name.furtherLexemes, List.flatMap_cons, List.cons_append, List.cons_append,
      List.nil_append] at spelled
    obtain ⟨comma, ts, rfl, separates, spelled⟩ := List.map_eq_cons_iff.1 spelled
    obtain ⟨t, ts, rfl, named, spelled⟩ := List.map_eq_cons_iff.1 spelled
    obtain ⟨kind, text⟩ := Token.lexeme_eq_iff.1 named
    obtain ⟨ns, same, spans⟩ := ih spelled
    refine ⟨⟨t, t.text⟩ :: ns, ?_, ?_⟩
    · rw [List.map_cons, List.map_cons, same, Name.record, Name.record, text]
    · intro rest
      obtain ⟨d⟩ := spans rest
      exact ⟨.nextName comma t (congrArg Lexeme.kind separates) kind d⟩

theorem Name.rederives_list (names : List Name)
    (spelled : ts.map Token.lexeme = Name.listLexemes names) :
    ∃ ns, ns.map Name.record = names.map Name.record ∧ (Phrase.names ns).Spans ts := by
  cases names with
  | nil =>
    have none : ts = [] := List.map_eq_nil_iff.1 spelled
    exact ⟨[], rfl, fun rest => ⟨none ▸ .noNames⟩⟩
  | cons n names =>
    obtain ⟨t, ts, rfl, named, spelled⟩ := List.map_eq_cons_iff.1 spelled
    obtain ⟨kind, text⟩ := Token.lexeme_eq_iff.1 named
    obtain ⟨ns, same, spans⟩ := Name.rederives_further names spelled
    refine ⟨⟨t, t.text⟩ :: ns, ?_, ?_⟩
    · rw [List.map_cons, List.map_cons, same, Name.record, Name.record, text]
    · intro rest
      obtain ⟨d⟩ := spans rest
      exact ⟨.names t kind d⟩

theorem Kind.opens_of_leads {k : Kind} (leads : k.leads = true) (prolongs : k.prolongs = true) :
    k = .leftParen ∨ k = .leftBracket := by
  simp only [Kind.leads, List.mem_cons, List.not_mem_nil, or_false, decide_eq_true_eq] at leads
  rcases leads with rfl | rfl | rfl | rfl | rfl | rfl | rfl | rfl | rfl <;>
    first | exact Or.inl rfl | exact Or.inr rfl | cases prolongs

theorem Expr.front_of_prolongs (legible : e.Legible)
    (spelled : ts.map Token.lexeme = e.lexemes) :
    ∃ t us, ts = t :: us ∧
      (t.kind.prolongs = true → e.characters.head? = some '(' ∨ e.characters.head? = some '[') := by
  obtain ⟨l, ls, more, front, shown, ⟨_, c, cs, read⟩, leads⟩ := e.begins legible
  rw [front] at spelled
  obtain ⟨t, us, rfl, first, _⟩ := List.map_eq_cons_iff.1 spelled
  refine ⟨t, us, rfl, ?_⟩
  intro prolongs
  have kind : t.kind = l.kind := congrArg Lexeme.kind first
  rw [kind] at prolongs
  have opens := Kind.opens_of_leads leads prolongs
  have form := form_of_read c cs
  rw [read] at form
  rw [shown]
  cases form with
  | operator _ value =>
    rcases opens with opens | opens
    · rw [covered, if_neg (by rw [opens]; decide), value, opens]
      exact Or.inl rfl
    · rw [covered, if_neg (by rw [opens]; decide), value, opens]
      exact Or.inr rfl
  | word text same =>
    have word : l.kind = Kind.ofWord text := congrArg Lexeme.kind same
    have other := Kind.not_operator_ofWord text
    rw [← word] at other
    rcases opens with opens | opens
    · exact absurd (by rw [opens]; decide) other
    · exact absurd (by rw [opens]; decide) other
  | integer other | string other | illegal other =>
    rw [other] at opens
    simp at opens

theorem Stmt.front_of_prolongs {s : Stmt} (legible : s.Legible)
    (spelled : ts.map Token.lexeme = s.lexemes) :
    ∃ t us, ts = t :: us ∧
      (t.kind.prolongs = true → s.isExpression = true ∧
        (s.characters.head? = some '(' ∨ s.characters.head? = some '[')) := by
  cases s with
  | bare token => simp at legible
  | block b => simp at legible
  | binding token name value =>
    obtain ⟨t, us, rfl, first, _⟩ := List.map_eq_cons_iff.1 spelled
    have kind : t.kind = .letWord := congrArg Lexeme.kind first
    refine ⟨t, us, rfl, ?_⟩
    intro prolongs
    rw [kind] at prolongs
    cases prolongs
  | result token value =>
    obtain ⟨t, us, rfl, first, _⟩ := List.map_eq_cons_iff.1 spelled
    have kind : t.kind = .returnWord := congrArg Lexeme.kind first
    refine ⟨t, us, rfl, ?_⟩
    intro prolongs
    rw [kind] at prolongs
    cases prolongs
  | expression token value =>
    rw [Stmt.Legible] at legible
    obtain ⟨t, us, rfl, shown⟩ := Expr.front_of_prolongs legible spelled
    rw [Stmt.characters_expression]
    exact ⟨t, us, rfl, fun prolongs => ⟨rfl, shown prolongs⟩⟩

theorem Stmt.next_of_unglued {s : Stmt} {ss : List Stmt} {rest : List Token}
    (apart : (ss.head?.all fun t => !s.glues t) = true) (legible : Stmt.AllLegible ss)
    (spelled : ts.map Token.lexeme = Stmt.allLexemes ss)
    (ends : ∀ t ∈ rest.head?, t.kind.prolongs = false) :
    s.isExpression = true → ∀ t ∈ (ts ++ rest).head?, t.kind.prolongs = false := by
  intro first u front
  cases ss with
  | nil =>
    have none : ts = [] := List.map_eq_nil_iff.1 spelled
    rw [none] at front
    exact ends u front
  | cons t ss =>
    rw [Stmt.AllLegible] at legible
    obtain ⟨ts, us, rfl, before, _⟩ := List.map_eq_append_iff.1 spelled
    obtain ⟨v, vs, rfl, shown⟩ := Stmt.front_of_prolongs legible.1 before
    cases front
    cases prolongs : u.kind.prolongs with
    | false => rfl
    | true =>
      obtain ⟨second, head⟩ := shown prolongs
      rw [Stmt.characters] at head
      simp only [List.head?_cons, Option.all_some, Stmt.glues, first, second,
        Bool.true_and, Bool.not_eq_true', Bool.or_eq_false_iff, decide_eq_false_iff_not] at apart
      rcases head with paren | bracket
      · exact absurd paren apart.1
      · exact absurd bracket apart.2

end

/-- Whether tokens with the lexemes of an expression derive it, if it is legible and safe. -/
def Expr.Returns (e : Expr) : Prop :=
  e.Legible → e.every Expr.parenthesised Stmt.unglued = true →
    ∀ ts : List Token, ts.map Token.lexeme = e.lexemes → e.Rederives ts

def Stmt.Returns (s : Stmt) : Prop :=
  s.Legible → s.every Expr.parenthesised Stmt.unglued = true →
    ∀ ts : List Token, ts.map Token.lexeme = s.lexemes → s.Rederives ts

def Block.Returns (b : Block) : Prop :=
  b.Legible → b.every Expr.parenthesised Stmt.unglued = true →
    ∀ ts : List Token, ts.map Token.lexeme = b.lexemes → b.Rederives ts

def Expr.ListReturns (es : List Expr) : Prop :=
  Expr.AllLegible es → Expr.allEvery Expr.parenthesised Stmt.unglued es = true →
    ∀ ts : List Token, ts.map Token.lexeme = Expr.listLexemes es → Expr.ListRederives es ts

def Expr.FurtherReturns (es : List Expr) : Prop :=
  Expr.AllLegible es → Expr.allEvery Expr.parenthesised Stmt.unglued es = true →
    ∀ ts : List Token, ts.map Token.lexeme = Expr.furtherLexemes es → Expr.FurtherRederives es ts

def Stmt.ListReturns (ss : List Stmt) : Prop :=
  Stmt.AllLegible ss → Stmt.unglued ss = true →
    Stmt.allEvery Expr.parenthesised Stmt.unglued ss = true →
    ∀ ts : List Token, ts.map Token.lexeme = Stmt.allLexemes ss → Stmt.ListRederives ss ts

section

variable {token : Token} {a b e : Expr} {x y : Block} {es : List Expr} {s : Stmt} {ss : List Stmt}

theorem returns_name (n : Name) : (Expr.name n).Returns := by
  intro _ _ ts spelled
  rw [Expr.lexemes, List.map_eq_singleton_iff] at spelled
  obtain ⟨t, rfl, named⟩ := spelled
  obtain ⟨kind, text⟩ := Token.lexeme_eq_iff.1 named
  refine rederives_of_primary (.name ⟨t, t.text⟩) rfl ?_ fun rest => ⟨.name t kind⟩
  rw [Expr.record, Expr.record, Name.record, Name.record, text]

theorem returns_integer (token : Token) (value : Int) : (Expr.integer token value).Returns := by
  intro legible _ ts spelled
  rw [Expr.lexemes, List.map_eq_singleton_iff] at spelled
  obtain ⟨t, rfl, shown⟩ := spelled
  exact rederives_integer legible shown

theorem returns_string (token : Token) (value : String) : (Expr.string token value).Returns := by
  intro _ _ ts spelled
  rw [Expr.lexemes, List.map_eq_singleton_iff] at spelled
  obtain ⟨t, rfl, shown⟩ := spelled
  obtain ⟨kind, text⟩ := Token.lexeme_eq_iff.1 shown
  refine rederives_of_primary (.string t t.text) rfl ?_ fun rest => ⟨.string t kind⟩
  rw [Expr.record, Expr.record, text]

theorem returns_boolean (token : Token) (value : Bool) : (Expr.boolean token value).Returns := by
  intro _ _ ts spelled
  rw [Expr.lexemes, List.map_eq_singleton_iff] at spelled
  obtain ⟨t, rfl, shown⟩ := spelled
  exact rederives_boolean shown

theorem returns_unary {operator : String} (operand : a.Returns) :
    (Expr.unary token operator a).Returns := by
  intro legible safe ts spelled
  rw [Expr.Legible] at legible
  rw [Expr.every] at safe
  obtain ⟨opened, ts, rfl, opens, spelled⟩ := List.map_eq_cons_iff.1 spelled
  obtain ⟨op, ts, rfl, shown, spelled⟩ := List.map_eq_cons_iff.1 spelled
  obtain ⟨ts, us, rfl, inner, spelled⟩ := List.map_eq_append_iff.1 spelled
  obtain ⟨closed, rfl, closes⟩ := List.map_eq_singleton_iff.1 spelled
  obtain ⟨kind, text⟩ := Token.lexeme_eq_iff.1 shown
  exact rederives_unary (congrArg Lexeme.kind opens) (congrArg Lexeme.kind closes)
    (by rw [kind]; exact legible.1) text (operand legible.2.2 safe ts inner)

theorem returns_binary {operator : String} (left : a.Returns) (right : b.Returns) :
    (Expr.binary token a operator b).Returns := by
  intro legible safe ts spelled
  rw [Expr.Legible] at legible
  obtain ⟨known, _, first, second⟩ := legible
  rw [Expr.every, Bool.and_eq_true] at safe
  obtain ⟨opened, ts, rfl, opens, spelled⟩ := List.map_eq_cons_iff.1 spelled
  obtain ⟨ts, us, rfl, before, spelled⟩ := List.map_eq_append_iff.1 spelled
  obtain ⟨op, us, rfl, shown, spelled⟩ := List.map_eq_cons_iff.1 spelled
  obtain ⟨us, vs, rfl, behind, spelled⟩ := List.map_eq_append_iff.1 spelled
  obtain ⟨closed, rfl, closes⟩ := List.map_eq_singleton_iff.1 spelled
  obtain ⟨kind, text⟩ := Token.lexeme_eq_iff.1 shown
  rw [← kind] at known
  exact rederives_binary (congrArg Lexeme.kind opens) (congrArg Lexeme.kind closes) known text
    (left first safe.1 ts before) (right second safe.2 us behind)

theorem returns_conditional (condition : a.Returns) (consequence : x.Returns) :
    (Expr.conditional token a x none).Returns := by
  intro legible safe ts spelled
  rw [Expr.Legible] at legible
  rw [Expr.every, Bool.and_eq_true, Bool.and_eq_true] at safe
  obtain ⟨⟨shown, safe⟩, safeBlock⟩ := safe
  obtain ⟨word, ts, rfl, kind, spelled⟩ := List.map_eq_cons_iff.1 spelled
  obtain ⟨ts, us, rfl, before, behind⟩ := List.map_eq_append_iff.1 spelled
  exact rederives_conditional (congrArg Lexeme.kind kind) shown
    (condition legible.1 safe ts before) (consequence legible.2 safeBlock us behind)

theorem returns_alternative (condition : a.Returns) (consequence : x.Returns)
    (alternative : y.Returns) : (Expr.conditional token a x (some y)).Returns := by
  intro legible safe ts spelled
  rw [Expr.Legible] at legible
  obtain ⟨first, second, third⟩ := legible
  rw [Expr.every, Bool.and_eq_true, Bool.and_eq_true, Bool.and_eq_true] at safe
  obtain ⟨⟨⟨shown, safe⟩, safeBlock⟩, safeOther⟩ := safe
  obtain ⟨word, ts, rfl, kind, spelled⟩ := List.map_eq_cons_iff.1 spelled
  obtain ⟨ts, us, rfl, before, spelled⟩ := List.map_eq_append_iff.1 spelled
  obtain ⟨us, vs, rfl, between, spelled⟩ := List.map_eq_append_iff.1 spelled
  obtain ⟨other, vs, rfl, otherwise, behind⟩ := List.map_eq_cons_iff.1 spelled
  exact rederives_alternative (congrArg Lexeme.kind kind) (congrArg Lexeme.kind otherwise) shown
    (condition first safe ts before) (consequence second safeBlock us between)
    (alternative third safeOther vs behind)

theorem returns_function {parameters : List Name} (body : x.Returns) :
    (Expr.function token parameters x).Returns := by
  intro legible safe ts spelled
  rw [Expr.Legible] at legible
  rw [Expr.every] at safe
  obtain ⟨word, ts, rfl, kind, spelled⟩ := List.map_eq_cons_iff.1 spelled
  obtain ⟨opened, ts, rfl, opens, spelled⟩ := List.map_eq_cons_iff.1 spelled
  obtain ⟨ts, us, rfl, named, spelled⟩ := List.map_eq_append_iff.1 spelled
  obtain ⟨closed, us, rfl, closes, behind⟩ := List.map_eq_cons_iff.1 spelled
  obtain ⟨names, same, spans⟩ := Name.rederives_list parameters named
  exact rederives_function (congrArg Lexeme.kind kind) (congrArg Lexeme.kind opens)
    (congrArg Lexeme.kind closes) same spans (body legible.2.2 safe us behind)

theorem returns_call (callee : a.Returns) (arguments : Expr.ListReturns es) :
    (Expr.call token a es).Returns := by
  intro legible safe ts spelled
  rw [Expr.Legible] at legible
  rw [Expr.every, Bool.and_eq_true] at safe
  obtain ⟨ts, us, rfl, before, spelled⟩ := List.map_eq_append_iff.1 spelled
  obtain ⟨opened, us, rfl, opens, spelled⟩ := List.map_eq_cons_iff.1 spelled
  obtain ⟨us, vs, rfl, listed, spelled⟩ := List.map_eq_append_iff.1 spelled
  obtain ⟨closed, rfl, closes⟩ := List.map_eq_singleton_iff.1 spelled
  exact rederives_call (congrArg Lexeme.kind opens) (congrArg Lexeme.kind closes)
    (callee legible.1 safe.1 ts before) (arguments legible.2 safe.2 us listed)

theorem returns_array (elements : Expr.ListReturns es) : (Expr.array token es).Returns := by
  intro legible safe ts spelled
  rw [Expr.Legible] at legible
  rw [Expr.every] at safe
  obtain ⟨opened, ts, rfl, opens, spelled⟩ := List.map_eq_cons_iff.1 spelled
  obtain ⟨us, vs, rfl, listed, spelled⟩ := List.map_eq_append_iff.1 spelled
  obtain ⟨closed, rfl, closes⟩ := List.map_eq_singleton_iff.1 spelled
  exact rederives_array (congrArg Lexeme.kind opens) (congrArg Lexeme.kind closes)
    (elements legible safe us listed)

theorem returns_index (collection : a.Returns) (position : b.Returns) :
    (Expr.index token a b).Returns := by
  intro legible safe ts spelled
  rw [Expr.Legible] at legible
  rw [Expr.every, Bool.and_eq_true] at safe
  obtain ⟨opened, ts, rfl, opens, spelled⟩ := List.map_eq_cons_iff.1 spelled
  obtain ⟨ts, us, rfl, before, spelled⟩ := List.map_eq_append_iff.1 spelled
  obtain ⟨op, us, rfl, bracket, spelled⟩ := List.map_eq_cons_iff.1 spelled
  obtain ⟨us, vs, rfl, behind, spelled⟩ := List.map_eq_append_iff.1 spelled
  obtain ⟨shut, vs, rfl, shuts, spelled⟩ := List.map_eq_cons_iff.1 spelled
  obtain ⟨closed, rfl, closes⟩ := List.map_eq_singleton_iff.1 spelled
  exact rederives_index (congrArg Lexeme.kind opens) (congrArg Lexeme.kind closes)
    (congrArg Lexeme.kind bracket) (congrArg Lexeme.kind shuts)
    (collection legible.1 safe.1 ts before) (position legible.2 safe.2 us behind)

theorem returns_binding {name : Name} (value : a.Returns) :
    (Stmt.binding token name a).Returns := by
  intro legible safe ts spelled
  rw [Stmt.Legible] at legible
  rw [Stmt.every] at safe
  obtain ⟨word, ts, rfl, kind, spelled⟩ := List.map_eq_cons_iff.1 spelled
  obtain ⟨t, ts, rfl, named, spelled⟩ := List.map_eq_cons_iff.1 spelled
  obtain ⟨assign, ts, rfl, assigns, spelled⟩ := List.map_eq_cons_iff.1 spelled
  obtain ⟨ts, us, rfl, inner, spelled⟩ := List.map_eq_append_iff.1 spelled
  obtain ⟨semicolon, rfl, ends⟩ := List.map_eq_singleton_iff.1 spelled
  obtain ⟨identifier, text⟩ := Token.lexeme_eq_iff.1 named
  obtain ⟨e', same, spans, _⟩ := value legible.2.2 safe ts inner
  refine ⟨.binding word ⟨t, t.text⟩ e', ?_, ?_⟩
  · rw [Stmt.record, Stmt.record, same, Name.record, Name.record, text]
  · intro rest _
    obtain ⟨d⟩ := spans.loosen (l := .equality) (by decide) (semicolon :: rest)
    have ended : Ended (semicolon :: rest) rest :=
      Or.inl ⟨semicolon, congrArg Lexeme.kind ends, rfl⟩
    have whole := Derivation.binding word t assign (congrArg Lexeme.kind kind) identifier
      (congrArg Lexeme.kind assigns) d ended
    simpa using Nonempty.intro whole

theorem returns_result (value : a.Returns) : (Stmt.result token a).Returns := by
  intro legible safe ts spelled
  rw [Stmt.Legible] at legible
  rw [Stmt.every] at safe
  obtain ⟨word, ts, rfl, kind, spelled⟩ := List.map_eq_cons_iff.1 spelled
  obtain ⟨ts, us, rfl, inner, spelled⟩ := List.map_eq_append_iff.1 spelled
  obtain ⟨semicolon, rfl, ends⟩ := List.map_eq_singleton_iff.1 spelled
  obtain ⟨e', same, spans, _⟩ := value legible.2 safe ts inner
  refine ⟨.result word e', ?_, ?_⟩
  · rw [Stmt.record, Stmt.record, same]
  · intro rest _
    obtain ⟨d⟩ := spans.loosen (l := .equality) (by decide) (semicolon :: rest)
    have ended : Ended (semicolon :: rest) rest :=
      Or.inl ⟨semicolon, congrArg Lexeme.kind ends, rfl⟩
    have whole := Derivation.result word (congrArg Lexeme.kind kind) d ended
    simpa using Nonempty.intro whole

theorem returns_expression (value : a.Returns) : (Stmt.expression token a).Returns := by
  intro legible safe ts spelled
  rw [Stmt.Legible] at legible
  rw [Stmt.every] at safe
  obtain ⟨e', same, spans, _⟩ := value legible safe ts spelled
  obtain ⟨t, us, rfl, _⟩ := Expr.front_of_prolongs legible spelled
  refine ⟨.expression t e', ?_, ?_⟩
  · rw [Stmt.record, Stmt.record, same]
  · intro rest apart
    obtain ⟨d⟩ := spans.loosen (l := .equality) (by decide) rest
    exact ⟨.expression d (Or.inr ⟨rfl, apart rfl⟩)⟩

theorem returns_block (statements : Stmt.ListReturns ss) : (Block.mk token ss).Returns := by
  intro legible safe ts spelled
  rw [Block.Legible] at legible
  rw [Block.every, Bool.and_eq_true] at safe
  obtain ⟨opened, ts, rfl, opens, spelled⟩ := List.map_eq_cons_iff.1 spelled
  obtain ⟨ts, us, rfl, inner, spelled⟩ := List.map_eq_append_iff.1 spelled
  obtain ⟨closed, rfl, closes⟩ := List.map_eq_singleton_iff.1 spelled
  have brace : closed.kind = .rightBrace := congrArg Lexeme.kind closes
  obtain ⟨ss', same, derives⟩ := statements legible safe.1 safe.2 ts inner
  refine ⟨.mk opened ss', ?_, ?_⟩
  · rw [Block.record, Block.record, same]
  · intro rest
    obtain ⟨d⟩ := derives (closed :: rest) (fun t front => by
      cases front
      rw [brace]
      rfl)
    have whole := Derivation.closed opened closed (congrArg Lexeme.kind opens) brace d
    simpa using Nonempty.intro whole

theorem returns_items (first : e.Returns) (others : Expr.FurtherReturns es) :
    Expr.ListReturns (e :: es) := by
  intro legible safe ts spelled
  rw [Expr.AllLegible] at legible
  rw [Expr.allEvery, Bool.and_eq_true] at safe
  obtain ⟨ts, us, rfl, before, behind⟩ := List.map_eq_append_iff.1 spelled
  obtain ⟨e', sameFirst, spansFirst, _⟩ := first legible.1 safe.1 ts before
  obtain ⟨es', sameOthers, spansOthers⟩ := others legible.2 safe.2 us behind
  refine ⟨e' :: es', ?_, ?_⟩
  · rw [Expr.records, Expr.records, sameFirst, sameOthers]
  · intro rest
    obtain ⟨dFirst⟩ := spansFirst.loosen (l := .equality) (by decide) (us ++ rest)
    obtain ⟨dOthers⟩ := spansOthers rest
    rw [List.append_assoc]
    exact ⟨.items dFirst dOthers⟩

theorem returns_nextItem (first : e.Returns) (others : Expr.FurtherReturns es) :
    Expr.FurtherReturns (e :: es) := by
  intro legible safe ts spelled
  rw [Expr.AllLegible] at legible
  rw [Expr.allEvery, Bool.and_eq_true] at safe
  obtain ⟨comma, ts, rfl, separates, spelled⟩ := List.map_eq_cons_iff.1 spelled
  obtain ⟨ts, us, rfl, before, behind⟩ := List.map_eq_append_iff.1 spelled
  obtain ⟨e', sameFirst, spansFirst, _⟩ := first legible.1 safe.1 ts before
  obtain ⟨es', sameOthers, spansOthers⟩ := others legible.2 safe.2 us behind
  refine ⟨e' :: es', ?_, ?_⟩
  · rw [Expr.records, Expr.records, sameFirst, sameOthers]
  · intro rest
    obtain ⟨dFirst⟩ := spansFirst.loosen (l := .equality) (by decide) (us ++ rest)
    obtain ⟨dOthers⟩ := spansOthers rest
    rw [List.cons_append, List.append_assoc]
    exact ⟨.nextItem comma (congrArg Lexeme.kind separates) dFirst dOthers⟩

theorem returns_stmts (first : s.Returns) (others : Stmt.ListReturns ss) :
    Stmt.ListReturns (s :: ss) := by
  intro legible unglued safe ts spelled
  rw [Stmt.AllLegible] at legible
  rw [Stmt.allEvery, Bool.and_eq_true] at safe
  rw [Stmt.unglued, Bool.and_eq_true] at unglued
  obtain ⟨apart, further⟩ := unglued
  obtain ⟨ts, us, rfl, before, behind⟩ := List.map_eq_append_iff.1 spelled
  obtain ⟨s', sameFirst, derivesFirst⟩ := first legible.1 safe.1 ts before
  obtain ⟨ss', sameOthers, derivesOthers⟩ := others legible.2 further safe.2 us behind
  refine ⟨s' :: ss', ?_, ?_⟩
  · rw [Stmt.records, Stmt.records, sameFirst, sameOthers]
  · intro rest ends
    obtain ⟨dFirst⟩ := derivesFirst (us ++ rest) (Stmt.next_of_unglued apart legible.2 behind ends)
    obtain ⟨dOthers⟩ := derivesOthers rest ends
    rw [List.append_assoc]
    exact ⟨.stmts dFirst dOthers⟩

end

mutual

theorem Expr.returns : (e : Expr) → e.Returns
  | .bare _ => fun legible => by simp at legible
  | .name n => returns_name n
  | .integer token value => returns_integer token value
  | .string token value => returns_string token value
  | .boolean token value => returns_boolean token value
  | .unary _ _ a => returns_unary a.returns
  | .binary _ a _ b => returns_binary a.returns b.returns
  | .conditional _ a x none => returns_conditional a.returns x.returns
  | .conditional _ a x (some y) => returns_alternative a.returns x.returns y.returns
  | .function _ _ x => returns_function x.returns
  | .call _ a es => returns_call a.returns (Expr.returns_list es)
  | .array _ es => returns_array (Expr.returns_list es)
  | .index _ a b => returns_index a.returns b.returns
termination_by structural e => e

theorem Stmt.returns : (s : Stmt) → s.Returns
  | .bare _ | .block _ => fun legible => by simp at legible
  | .binding _ _ a => returns_binding a.returns
  | .result _ a => returns_result a.returns
  | .expression _ a => returns_expression a.returns
termination_by structural s => s

theorem Block.returns : (b : Block) → b.Returns
  | .mk _ ss => returns_block (Stmt.returns_list ss)
termination_by structural b => b

theorem Expr.returns_list : (es : List Expr) → Expr.ListReturns es
  | [] => fun _ _ _ spelled =>
    have none := List.map_eq_nil_iff.1 spelled
    ⟨[], rfl, fun _ => ⟨none ▸ .noItems⟩⟩
  | e :: es => returns_items e.returns (Expr.returns_further es)
termination_by structural es => es

theorem Expr.returns_further : (es : List Expr) → Expr.FurtherReturns es
  | [] => fun _ _ _ spelled =>
    have none := List.map_eq_nil_iff.1 spelled
    ⟨[], rfl, fun _ => ⟨none ▸ .lastItem⟩⟩
  | e :: es => returns_nextItem e.returns (Expr.returns_further es)
termination_by structural es => es

theorem Stmt.returns_list : (ss : List Stmt) → Stmt.ListReturns ss
  | [] => fun _ _ _ _ spelled =>
    have none := List.map_eq_nil_iff.1 spelled
    ⟨[], rfl, fun _ _ => ⟨none ▸ .noStmts⟩⟩
  | s :: ss => returns_stmts s.returns (Stmt.returns_list ss)
termination_by structural ss => ss

end

end PrattFrontEnd
