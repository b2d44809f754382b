import Mathlib.Data.List.Forall2
import PrattFrontEnd.Proofs.Rendering.Characters
import PrattFrontEnd.Proofs.Scanning.Scans
import PrattFrontEnd.Proofs.Syntax.Sameness

/-!
What may be taken for alike in two runs: tokens, and the trees that are built from them. Trees built
in one way from tokens and trees that are alike are alike. Main definitions: `Likeness.equal`, where
nothing but the same is alike, and `Likeness.shown`, where tokens may differ in their places.
-/
namespace PrattFrontEnd

/-- Relations between tokens and between trees that every way to build a tree preserves. -/
structure Likeness where
  token : Token → Token → Prop
  expr : Expr → Expr → Prop
  block : Block → Block → Prop
  stmt : Stmt → Stmt → Prop
  lexeme {t u : Token} (alike : token t u) : t.lexeme = u.lexeme
  name {t u : Token} {a : String} (alike : token t u) : expr (.name ⟨t, a⟩) (.name ⟨u, a⟩)
  integer {t u : Token} {n : Int} (alike : token t u) : expr (.integer t n) (.integer u n)
  string {t u : Token} {a : String} (alike : token t u) : expr (.string t a) (.string u a)
  boolean {t u : Token} {b : Bool} (alike : token t u) : expr (.boolean t b) (.boolean u b)
  unary {t u : Token} {o : String} {a b : Expr} (alike : token t u) (operand : expr a b) :
    expr (.unary t o a) (.unary u o b)
  binary {t u : Token} {o : String} {a b c d : Expr} (alike : token t u) (left : expr a b)
    (right : expr c d) : expr (.binary t a o c) (.binary u b o d)
  conditional {t u : Token} {a b : Expr} {c d : Block} (alike : token t u) (condition : expr a b)
    (consequence : block c d) : expr (.conditional t a c none) (.conditional u b d none)
  alternative {t u : Token} {a b : Expr} {c d x y : Block} (alike : token t u)
    (condition : expr a b) (consequence : block c d) (other : block x y) :
    expr (.conditional t a c (some x)) (.conditional u b d (some y))
  function {t u : Token} {ns ms : List Name} {b c : Block} (alike : token t u)
    (parameters : List.Forall₂ (fun n m => token n.token m.token ∧ n.text = m.text) ns ms)
    (body : block b c) : expr (.function t ns b) (.function u ms c)
  call {t u : Token} {a b : Expr} {es fs : List Expr} (alike : token t u) (callee : expr a b)
    (arguments : List.Forall₂ expr es fs) : expr (.call t a es) (.call u b fs)
  array {t u : Token} {es fs : List Expr} (alike : token t u)
    (elements : List.Forall₂ expr es fs) : expr (.array t es) (.array u fs)
  index {t u : Token} {a b c d : Expr} (alike : token t u) (collection : expr a b)
    (position : expr c d) : expr (.index t a c) (.index u b d)
  braced {t u : Token} {ss ts : List Stmt} (alike : token t u)
    (statements : List.Forall₂ stmt ss ts) : block (.mk t ss) (.mk u ts)
  binding {t u : Token} {n m : Name} {a b : Expr} (alike : token t u)
    (target : token n.token m.token ∧ n.text = m.text) (value : expr a b) :
    stmt (.binding t n a) (.binding u m b)
  result {t u : Token} {a b : Expr} (alike : token t u) (value : expr a b) :
    stmt (.result t a) (.result u b)
  expression {t u : Token} {a b : Expr} (alike : token t u) (value : expr a b) :
    stmt (.expression t a) (.expression u b)

namespace Likeness

theorem kind (like : Likeness) {t u : Token} (alike : like.token t u) : t.kind = u.kind :=
  congrArg Lexeme.kind (like.lexeme alike)

theorem text (like : Likeness) {t u : Token} (alike : like.token t u) : t.text = u.text :=
  String.toList_inj.1 (congrArg Lexeme.value (like.lexeme alike))

def names (like : Likeness) : List Name → List Name → Prop :=
  List.Forall₂ fun n m => like.token n.token m.token ∧ n.text = m.text

theorem names_eq {ns ms : List Name}
    (same : List.Forall₂ (fun n m : Name => n.token = m.token ∧ n.text = m.text) ns ms) :
    ns = ms := by
  induction same with
  | nil => rfl
  | @cons n m ns ms first _ ih =>
    obtain ⟨_, _⟩ := n
    obtain ⟨_, _⟩ := m
    obtain ⟨rfl, rfl⟩ := first
    rw [ih]

def equal : Likeness where
  token := Eq
  expr := Eq
  block := Eq
  stmt := Eq
  lexeme := by rintro _ _ rfl; rfl
  name := by rintro _ _ _ rfl; rfl
  integer := by rintro _ _ _ rfl; rfl
  string := by rintro _ _ _ rfl; rfl
  boolean := by rintro _ _ _ rfl; rfl
  unary := by rintro _ _ _ _ _ rfl rfl; rfl
  binary := by rintro _ _ _ _ _ _ _ rfl rfl rfl; rfl
  conditional := by rintro _ _ _ _ _ _ rfl rfl rfl; rfl
  alternative := by rintro _ _ _ _ _ _ _ _ rfl rfl rfl rfl; rfl
  function := by rintro _ _ _ _ _ _ rfl names rfl; rw [names_eq names]
  call := by
    rintro _ _ _ _ _ _ rfl rfl arguments
    rw [List.forall₂_eq_eq_eq] at arguments
    rw [arguments]
  array := by
    rintro _ _ _ _ rfl elements
    rw [List.forall₂_eq_eq_eq] at elements
    rw [elements]
  index := by rintro _ _ _ _ _ _ rfl rfl rfl; rfl
  braced := by
    rintro _ _ _ _ rfl statements
    rw [List.forall₂_eq_eq_eq] at statements
    rw [statements]
  binding := by
    rintro _ _ n m _ _ rfl target rfl
    rw [(List.cons.inj (names_eq (.cons target .nil))).1]
  result := by rintro _ _ _ _ rfl rfl; rfl
  expression := by rintro _ _ _ _ rfl rfl; rfl

theorem stmts_eq {ss ts : List Stmt} (alike : List.Forall₂ equal.stmt ss ts) : ss = ts := by
  have same : List.Forall₂ Eq ss ts := alike
  rwa [List.forall₂_eq_eq_eq] at same

theorem maps_eq {f : α → β} {g : α → γ} {as bs : List α}
    (alike : List.Forall₂ (fun a b => f a = f b ∧ g a = g b) as bs) :
    as.map f = bs.map f ∧ as.map g = bs.map g := by
  induction alike with
  | nil => exact ⟨rfl, rfl⟩
  | cons first _ ih =>
    simp only [List.map_cons, first.1, first.2, ih.1, ih.2, and_self]

theorem names_shown {ns ms : List Name}
    (alike : List.Forall₂ (fun n m : Name => n.token.lexeme = m.token.lexeme ∧ n.text = m.text)
      ns ms) : ns.map Name.record = ms.map Name.record ∧ ns.map Name.text = ms.map Name.text := by
  apply maps_eq
  refine alike.imp ?_
  intro n m same
  exact ⟨by rw [Name.record, Name.record, same.2], same.2⟩

/-- Tokens may differ in their places, and trees in what they do not show: they have one record and
are rendered the same. -/
def shown : Likeness where
  token t u := t.lexeme = u.lexeme
  expr a b := a.record = b.record ∧ a.characters = b.characters
  block b c := b.record = c.record ∧ b.characters = c.characters
  stmt s t := s.record = t.record ∧ s.characters = t.characters
  lexeme alike := alike
  name alike := by
    simp only [Expr.record, Name.record, Expr.characters_name, and_self]
  integer alike := by
    have text := String.toList_inj.1 (congrArg Lexeme.value alike)
    simp only [Expr.record, Expr.characters_integer, text, and_self]
  string alike := by
    simp only [Expr.record, Expr.characters_string, and_self]
  boolean alike := by
    simp only [Expr.record, Expr.characters_boolean, and_self]
  unary alike operand := by
    simp only [Expr.record, Expr.characters_unary, operand, and_self]
  binary alike left right := by
    simp only [Expr.record, Expr.characters_binary, left, right, and_self]
  conditional alike condition consequence := by
    simp only [Expr.record, Expr.characters_conditional, condition, consequence, and_self]
  alternative alike condition consequence other := by
    simp only [Expr.record, Expr.characters_alternative, condition, consequence, other, and_self]
  function alike parameters body := by
    have text := String.toList_inj.1 (congrArg Lexeme.value alike)
    obtain ⟨records, texts⟩ := names_shown parameters
    simp only [Expr.record, Expr.characters_function, text, records,
      Name.listCharacters_congr texts, body, and_self]
  call alike callee arguments := by
    obtain ⟨records, characters⟩ := maps_eq arguments
    simp only [Expr.record, Expr.characters_call, callee, Expr.records_eq_map, records,
      Expr.listCharacters_congr characters, and_self]
  array alike elements := by
    obtain ⟨records, characters⟩ := maps_eq elements
    simp only [Expr.record, Expr.characters_array, Expr.records_eq_map, records,
      Expr.listCharacters_congr characters, and_self]
  index alike collection position := by
    simp only [Expr.record, Expr.characters_index, collection, position, and_self]
  braced alike statements := by
    obtain ⟨records, characters⟩ := maps_eq statements
    exact ⟨by simp only [Block.record, Stmt.records_eq_map, records],
      Block.characters_congr _ _ characters⟩
  binding alike target value := by
    have text := String.toList_inj.1 (congrArg Lexeme.value alike)
    simp only [Stmt.record, Name.record, Stmt.characters_binding, text, target.2, value, and_self]
  result alike value := by
    have text := String.toList_inj.1 (congrArg Lexeme.value alike)
    simp only [Stmt.record, Stmt.characters_result, text, value, and_self]
  expression alike value := by
    simp only [Stmt.record, Stmt.characters_expression, value, and_self]

end Likeness

theorem Program.shown_alike {p q : Program}
    (alike : List.Forall₂ Likeness.shown.stmt p.statements q.statements) :
    p.same q = true ∧ p.render = q.render := by
  obtain ⟨records, characters⟩ := Likeness.maps_eq alike
  refine ⟨(Program.same_iff_record p q).2 records, String.toList_inj.1 ?_⟩
  rw [p.characters_eq, q.characters_eq, Stmt.listCharacters_congr '\n' characters]

end PrattFrontEnd
