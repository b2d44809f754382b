import Mathlib.Algebra.Group.Nat.Defs
import PrattFrontEnd.Syntax.Tree
import PrattFrontEnd.Text.Numeral

/-!
The grammar of the language, apart from any way to parse it. A derivation says that a list of tokens
starts with a phrase and what follows the phrase. Expressions are stratified, the loosest operators
first; operators of one stratum associate to the left.
-/
namespace PrattFrontEnd

/-- The strata of expressions, from the loosest operators to the parts that hold together. -/
inductive Level where
  | equality | comparison | sum | product | unary | applied | primary
  deriving DecidableEq, Repr

def Level.tighter? : Level → Option Level
  | equality => some comparison
  | comparison => some sum
  | sum => some product
  | product => some unary
  | unary => some applied
  | applied => some primary
  | primary => none

def Kind.operatorLevel? : Kind → Option Level
  | .equal | .notEqual => some .equality
  | .less | .greater => some .comparison
  | .plus | .minus => some .sum
  | .asterisk | .slash => some .product
  | _ => none

/-- Whether a token of this kind can follow an expression and be part of a longer one. -/
def Kind.prolongs (k : Kind) : Bool :=
  k.operatorLevel?.isSome || k = .leftParen || k = .leftBracket

/-- A statement ends with a semicolon, or without one before a token that cannot continue it. -/
def Ended (before after : List Token) : Prop :=
  (∃ semicolon : Token, semicolon.kind = .semicolon ∧ before = semicolon :: after) ∨
    (before = after ∧ ∀ t ∈ after.head?, t.kind.prolongs = false)

theorem Ended.length_le {before after : List Token} (ended : Ended before after) :
    after.length ≤ before.length := by
  rcases ended with ⟨semicolon, _, rfl⟩ | ⟨rfl, _⟩
  · simp
  · exact Nat.le_refl _

inductive Phrase where
  | expr (level : Level) (e : Expr)
  | items (es : List Expr)
  | furtherItems (es : List Expr)
  | names (ns : List Name)
  | furtherNames (ns : List Name)
  | block (b : Block)
  | stmt (s : Stmt)
  | stmts (ss : List Stmt)

/-- A derivation of a phrase from the front of the first list, before the second list. -/
inductive Derivation : Phrase → List Token → List Token → Type where
  | tighter {l m : Level} {e : Expr} {ts rest : List Token} (below : l.tighter? = some m)
      (inner : Derivation (.expr m e) ts rest) : Derivation (.expr l e) ts rest
  | binary {l m : Level} {a b : Expr} {ts mid rest : List Token} (operator : Token)
      (known : operator.kind.operatorLevel? = some l) (below : l.tighter? = some m)
      (left : Derivation (.expr l a) ts (operator :: mid))
      (right : Derivation (.expr m b) mid rest) :
      Derivation (.expr l (.binary operator a operator.text b)) ts rest
  | unary {e : Expr} {ts rest : List Token} (operator : Token)
      (known : operator.kind = .bang ∨ operator.kind = .minus)
      (operand : Derivation (.expr .unary e) ts rest) :
      Derivation (.expr .unary (.unary operator operator.text e)) (operator :: ts) rest
  | call {f : Expr} {es : List Expr} {ts mid rest : List Token} (opened closed : Token)
      (opens : opened.kind = .leftParen) (closes : closed.kind = .rightParen)
      (callee : Derivation (.expr .applied f) ts (opened :: mid))
      (arguments : Derivation (.items es) mid (closed :: rest)) :
      Derivation (.expr .applied (.call opened f es)) ts rest
  | index {a i : Expr} {ts mid rest : List Token} (opened closed : Token)
      (opens : opened.kind = .leftBracket) (closes : closed.kind = .rightBracket)
      (collection : Derivation (.expr .applied a) ts (opened :: mid))
      (position : Derivation (.expr .equality i) mid (closed :: rest)) :
      Derivation (.expr .applied (.index opened a i)) ts rest
  | name {rest : List Token} (t : Token) (kind : t.kind = .identifier) :
      Derivation (.expr .primary (.name ⟨t, t.text⟩)) (t :: rest) rest
  | integer {rest : List Token} (t : Token) (kind : t.kind = .integer)
      (digits : t.text.toList ≠ [] ∧ t.text.toList.all Char.isDigit)
      (bound : Text.digitsValue t.text.toList ≤ 2 ^ 63 - 1) :
      Derivation (.expr .primary (.integer t (Text.digitsValue t.text.toList))) (t :: rest) rest
  | string {rest : List Token} (t : Token) (kind : t.kind = .string) :
      Derivation (.expr .primary (.string t t.text)) (t :: rest) rest
  | yes {rest : List Token} (t : Token) (kind : t.kind = .trueWord) :
      Derivation (.expr .primary (.boolean t true)) (t :: rest) rest
  | no {rest : List Token} (t : Token) (kind : t.kind = .falseWord) :
      Derivation (.expr .primary (.boolean t false)) (t :: rest) rest
  | group {e : Expr} {ts rest : List Token} (opened closed : Token)
      (opens : opened.kind = .leftParen) (closes : closed.kind = .rightParen)
      (inner : Derivation (.expr .equality e) ts (closed :: rest)) :
      Derivation (.expr .primary e) (opened :: ts) rest
  | array {es : List Expr} {ts rest : List Token} (opened closed : Token)
      (opens : opened.kind = .leftBracket) (closes : closed.kind = .rightBracket)
      (elements : Derivation (.items es) ts (closed :: rest)) :
      Derivation (.expr .primary (.array opened es)) (opened :: ts) rest
  | conditional {c : Expr} {b : Block} {ts mid rest : List Token} (word opened closed : Token)
      (kind : word.kind = .ifWord) (opens : opened.kind = .leftParen)
      (closes : closed.kind = .rightParen)
      (condition : Derivation (.expr .equality c) ts (closed :: mid))
      (consequence : Derivation (.block b) mid rest) :
      Derivation (.expr .primary (.conditional word c b none)) (word :: opened :: ts) rest
  | alternative {c : Expr} {b d : Block} {ts mid late rest : List Token}
      (word opened closed other : Token)
      (kind : word.kind = .ifWord) (opens : opened.kind = .leftParen)
      (closes : closed.kind = .rightParen) (otherwise : other.kind = .elseWord)
      (condition : Derivation (.expr .equality c) ts (closed :: mid))
      (consequence : Derivation (.block b) mid (other :: late))
      (alternative : Derivation (.block d) late rest) :
      Derivation (.expr .primary (.conditional word c b (some d))) (word :: opened :: ts) rest
  | function {ns : List Name} {b : Block} {ts mid rest : List Token} (word opened closed : Token)
      (kind : word.kind = .functionWord) (opens : opened.kind = .leftParen)
      (closes : closed.kind = .rightParen)
      (parameters : Derivation (.names ns) ts (closed :: mid))
      (body : Derivation (.block b) mid rest) :
      Derivation (.expr .primary (.function word ns b)) (word :: opened :: ts) rest
  | noItems {rest : List Token} : Derivation (.items []) rest rest
  | items {e : Expr} {es : List Expr} {ts mid rest : List Token}
      (first : Derivation (.expr .equality e) ts mid)
      (further : Derivation (.furtherItems es) mid rest) : Derivation (.items (e :: es)) ts rest
  | lastItem {rest : List Token} : Derivation (.furtherItems []) rest rest
  | nextItem {e : Expr} {es : List Expr} {ts mid rest : List Token} (comma : Token)
      (kind : comma.kind = .comma) (next : Derivation (.expr .equality e) ts mid)
      (further : Derivation (.furtherItems es) mid rest) :
      Derivation (.furtherItems (e :: es)) (comma :: ts) rest
  | noNames {rest : List Token} : Derivation (.names []) rest rest
  | names {ns : List Name} {ts rest : List Token} (t : Token) (kind : t.kind = .identifier)
      (further : Derivation (.furtherNames ns) ts rest) :
      Derivation (.names (⟨t, t.text⟩ :: ns)) (t :: ts) rest
  | lastName {rest : List Token} : Derivation (.furtherNames []) rest rest
  | nextName {ns : List Name} {ts rest : List Token} (comma t : Token)
      (separates : comma.kind = .comma) (kind : t.kind = .identifier)
      (further : Derivation (.furtherNames ns) ts rest) :
      Derivation (.furtherNames (⟨t, t.text⟩ :: ns)) (comma :: t :: ts) rest
  | closed {ss : List Stmt} {ts rest : List Token} (opened closed : Token)
      (opens : opened.kind = .leftBrace) (closes : closed.kind = .rightBrace)
      (inside : Derivation (.stmts ss) ts (closed :: rest)) :
      Derivation (.block (.mk opened ss)) (opened :: ts) rest
  | unclosed {ss : List Stmt} {ts : List Token} (opened : Token)
      (opens : opened.kind = .leftBrace) (inside : Derivation (.stmts ss) ts []) :
      Derivation (.block (.mk opened ss)) (opened :: ts) []
  | binding {e : Expr} {ts mid rest : List Token} (word t assign : Token)
      (kind : word.kind = .letWord) (named : t.kind = .identifier)
      (assigns : assign.kind = .assign) (value : Derivation (.expr .equality e) ts mid)
      (ended : Ended mid rest) :
      Derivation (.stmt (.binding word ⟨t, t.text⟩ e)) (word :: t :: assign :: ts) rest
  | result {e : Expr} {ts mid rest : List Token} (word : Token) (kind : word.kind = .returnWord)
      (value : Derivation (.expr .equality e) ts mid) (ended : Ended mid rest) :
      Derivation (.stmt (.result word e)) (word :: ts) rest
  | expression {e : Expr} {first : Token} {ts mid rest : List Token}
      (value : Derivation (.expr .equality e) (first :: ts) mid) (ended : Ended mid rest) :
      Derivation (.stmt (.expression first e)) (first :: ts) rest
  | noStmts {rest : List Token} : Derivation (.stmts []) rest rest
  | stmts {s : Stmt} {ss : List Stmt} {ts mid rest : List Token}
      (first : Derivation (.stmt s) ts mid) (further : Derivation (.stmts ss) mid rest) :
      Derivation (.stmts (s :: ss)) ts rest

def Program.DerivesFrom (program : Program) (tokens : List Token) : Prop :=
  Nonempty (Derivation (.stmts program.statements) tokens [])

namespace Derivation

/-- How many expressions stand inside one another. Left operands and callees are for free. -/
def need {phrase : Phrase} {ts rest : List Token} : Derivation phrase ts rest → Nat
  | tighter _ inner => inner.need
  | binary _ _ _ left right => max left.need (1 + right.need)
  | unary _ _ operand => 1 + operand.need
  | call _ _ _ _ callee arguments => max callee.need (1 + arguments.need)
  | index _ _ _ _ collection position => max collection.need (1 + position.need)
  | name _ _ | integer _ _ _ _ | string _ _ | yes _ _ | no _ _ => 1
  | group _ _ _ _ inner => 1 + inner.need
  | array _ _ _ _ elements => 1 + elements.need
  | conditional _ _ _ _ _ _ condition consequence => 1 + max condition.need consequence.need
  | alternative _ _ _ _ _ _ _ _ condition consequence other =>
    1 + max condition.need (max consequence.need other.need)
  | function _ _ _ _ _ _ _ body => 1 + body.need
  | noItems => 0
  | items first further => max first.need further.need
  | lastItem => 0
  | nextItem _ _ next further => max next.need further.need
  | noNames | names _ _ _ | lastName | nextName _ _ _ _ _ => 0
  | closed _ _ _ _ inside => inside.need
  | unclosed _ _ inside => inside.need
  | binding _ _ _ _ _ _ value _ => value.need
  | result _ _ value _ => value.need
  | expression value _ => value.need
  | noStmts => 0
  | stmts first further => max first.need further.need

theorem need_add_length_le {phrase : Phrase} {ts rest : List Token}
    (d : Derivation phrase ts rest) : d.need + rest.length ≤ ts.length := by
  induction d with
  | binding word t assign kind named assigns value ended ih =>
    have shorter := ended.length_le
    simp only [need, List.length_cons]
    omega
  | result word kind value ended ih =>
    have shorter := ended.length_le
    simp only [need, List.length_cons]
    omega
  | expression value ended ih =>
    have shorter := ended.length_le
    simp only [need]
    omega
  | _ =>
    simp only [need, List.length_cons] at *
    omega

theorem need_pos_of_expr {phrase : Phrase} {ts rest : List Token} {l : Level} {e : Expr}
    (d : Derivation phrase ts rest) (expression : phrase = .expr l e) : 0 < d.need := by
  induction d generalizing l e with
  | tighter below inner ih => exact ih rfl
  | binary _ _ _ left right _ _ => exact Nat.lt_of_lt_of_le (by omega) (Nat.le_max_right _ _)
  | call _ _ _ _ callee arguments _ _ =>
    exact Nat.lt_of_lt_of_le (by omega) (Nat.le_max_right _ _)
  | index _ _ _ _ collection position _ _ =>
    exact Nat.lt_of_lt_of_le (by omega) (Nat.le_max_right _ _)
  | _ => first | cases expression; done | (simp only [need]; omega)

theorem need_pos {ts rest : List Token} {l : Level} {e : Expr}
    (d : Derivation (.expr l e) ts rest) : 0 < d.need :=
  d.need_pos_of_expr rfl

theorem end_behind {phrase : Phrase} {ts rest : List Token} (d : Derivation phrase ts rest) :
    ∀ t ∈ ts, t.kind = .eof → t ∈ rest := by
  induction d with
  | binary operator known below left right =>
    have operators : operator.kind ≠ .eof := by
      intro ended
      rw [ended] at known
      cases known
    grind
  | binding word t assign kind named assigns value ended =>
    rcases ended with ⟨semicolon, _, _⟩ | ⟨_, _⟩ <;> grind
  | result word kind value ended =>
    rcases ended with ⟨semicolon, _, _⟩ | ⟨_, _⟩ <;> grind
  | expression value ended =>
    rcases ended with ⟨semicolon, _, _⟩ | ⟨_, _⟩ <;> grind
  | _ => grind

theorem noEnd {phrase : Phrase} {tokens : List Token} (d : Derivation phrase tokens []) :
    ∀ t ∈ tokens, t.kind ≠ .eof :=
  fun t member ended => absurd (d.end_behind t member ended) List.not_mem_nil

end Derivation

end PrattFrontEnd
