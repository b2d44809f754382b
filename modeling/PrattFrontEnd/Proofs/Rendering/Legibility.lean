import PrattFrontEnd.Proofs.Parser.Building

/-!
Every tree that is parsed from a source text is legible, whatever is reported on the way: each of its
nodes was made at a token that has been read, and shows nothing else. Main statement:
`legible_of_parse`.
-/
namespace PrattFrontEnd

namespace Token.Read

variable {t : Token}

theorem legible (read : t.Read) {k : Kind} (kind : t.kind = k) (legal : k ≠ .illegal)
    (more : k ≠ .eof) : Lexeme.Legible ⟨k, t.text.toList⟩ := by
  rcases read with ended | ⟨c, cs, same⟩
  · exact absurd (kind ▸ ended) more
  · refine ⟨legal, c, cs, ?_⟩
    rw [same, Token.lexeme, kind]

end Token.Read

theorem Name.legible_of_genuine {n : Name} (genuine : (Node.expr (.name n)).Genuine) : n.Legible := by
  obtain ⟨read, kind, text⟩ := genuine.made
  rw [Name.Legible, Name.lexeme, text]
  exact read.legible kind (by decide) (by decide)

mutual

theorem Expr.legible_of_genuine : (e : Expr) → (Node.expr e).Genuine → e.Legible
  | .bare _, genuine => genuine.made.2
  | .name n, genuine => by
    rw [Expr.Legible]
    exact n.legible_of_genuine genuine
  | .integer token value, genuine => by
    obtain ⟨read, kind, shown⟩ := genuine.made
    rw [Expr.Legible]
    exact ⟨read.legible kind (by decide) (by decide), shown⟩
  | .string token value, genuine => by
    obtain ⟨read, kind, text⟩ := genuine.made
    rw [Expr.Legible, text]
    exact read.legible kind (by decide) (by decide)
  | .boolean token value, _ => by
    rw [Expr.Legible]
    trivial
  | .unary token operator operand, genuine => by
    obtain ⟨read, kinds, text⟩ := genuine.made
    have inner := operand.legible_of_genuine (genuine.below _ (List.mem_singleton.2 rfl))
    have shown := text.trans (read.unary kinds)
    simp only [Opening.kinds, List.mem_cons, List.not_mem_nil, or_false] at kinds
    rw [Expr.Legible]
    exact ⟨kinds, shown, inner⟩
  | .binary token left operator right, genuine => by
    obtain ⟨read, known, text⟩ := genuine.made
    have first := left.legible_of_genuine (genuine.below _ List.mem_cons_self)
    have second := right.legible_of_genuine (genuine.below _ (List.mem_cons_of_mem _ List.mem_cons_self))
    have member := Kind.mem_operators_of_operatorLevel? known
    rw [Expr.Legible]
    exact ⟨known, text.trans (read.operator member), first, second⟩
  | .conditional token condition consequence none, genuine => by
    have first := condition.legible_of_genuine (genuine.below _ List.mem_cons_self)
    have second := consequence.legible_of_genuine
      (genuine.below _ (List.mem_cons_of_mem _ List.mem_cons_self))
    rw [Expr.Legible]
    exact ⟨first, second⟩
  | .conditional token condition consequence (some alternative), genuine => by
    have first := condition.legible_of_genuine (genuine.below _ List.mem_cons_self)
    have second := consequence.legible_of_genuine
      (genuine.below _ (List.mem_cons_of_mem _ List.mem_cons_self))
    have third := alternative.legible_of_genuine
      (genuine.below _ (List.mem_cons_of_mem _ (List.mem_cons_of_mem _ List.mem_cons_self)))
    rw [Expr.Legible]
    exact ⟨first, second, third⟩
  | .function token parameters body, genuine => by
    have below := genuine.below
    rw [Node.children_function] at below
    obtain ⟨names, inner⟩ := List.forall_mem_append.1 below
    rw [List.forall_mem_map] at names
    rw [Expr.Legible]
    exact ⟨genuine.made.1.keyword (by decide) genuine.made.2,
      fun n member => n.legible_of_genuine (names n member),
      body.legible_of_genuine (List.forall_mem_singleton.1 inner)⟩
  | .call token callee arguments, genuine => by
    have below := genuine.below
    rw [Node.children_call, List.forall_mem_cons, List.forall_mem_map] at below
    rw [Expr.Legible]
    exact ⟨callee.legible_of_genuine below.1, Expr.allLegible_of_genuine arguments below.2⟩
  | .array token elements, genuine => by
    have below := genuine.below
    rw [Node.children_array, List.forall_mem_map] at below
    rw [Expr.Legible]
    exact Expr.allLegible_of_genuine elements below
  | .index token collection position, genuine => by
    have first := collection.legible_of_genuine (genuine.below _ List.mem_cons_self)
    have second := position.legible_of_genuine
      (genuine.below _ (List.mem_cons_of_mem _ List.mem_cons_self))
    rw [Expr.Legible]
    exact ⟨first, second⟩

theorem Stmt.legible_of_listed : (s : Stmt) → s.Listed → s.Legible
  | .bare _, listed => listed.1.made.2
  | .block b, listed => absurd rfl (listed.2 b)
  | .binding token name value, listed => by
    have read := listed.1.made
    have named := name.legible_of_genuine (listed.1.below _ List.mem_cons_self)
    have inner := value.legible_of_genuine
      (listed.1.below _ (List.mem_cons_of_mem _ List.mem_cons_self))
    rw [Stmt.Legible]
    exact ⟨read.1.keyword (by decide) read.2, named, inner⟩
  | .result token value, listed => by
    have read := listed.1.made
    have inner := value.legible_of_genuine (listed.1.below _ List.mem_cons_self)
    rw [Stmt.Legible]
    exact ⟨read.1.keyword (by decide) read.2, inner⟩
  | .expression token value, listed => by
    have inner := value.legible_of_genuine (listed.1.below _ List.mem_cons_self)
    rw [Stmt.Legible]
    exact inner

theorem Block.legible_of_genuine : (b : Block) → (Node.stmt (.block b)).Genuine → b.Legible
  | .mk token statements, genuine => by
    have below := genuine.below
    rw [Node.children_block, List.forall_mem_map] at below
    rw [Block.Legible]
    apply Stmt.allLegible_of_listed statements
    intro s member
    refine ⟨below s member, ?_⟩
    rintro b rfl
    exact genuine.made.2 b member

theorem Expr.allLegible_of_genuine :
    (es : List Expr) → (∀ e ∈ es, (Node.expr e).Genuine) → Expr.AllLegible es
  | [], _ => trivial
  | e :: es, genuine => by
    rw [List.forall_mem_cons] at genuine
    rw [Expr.AllLegible]
    exact ⟨e.legible_of_genuine genuine.1, Expr.allLegible_of_genuine es genuine.2⟩

theorem Stmt.allLegible_of_listed :
    (ss : List Stmt) → (∀ s ∈ ss, s.Listed) → Stmt.AllLegible ss
  | [], _ => trivial
  | s :: ss, listed => by
    rw [List.forall_mem_cons] at listed
    rw [Stmt.AllLegible]
    exact ⟨s.legible_of_listed listed.1, Stmt.allLegible_of_listed ss listed.2⟩

end

/-- Every program that is parsed from a source text is legible, with diagnostics or without. -/
theorem legible_of_parse (source : String) (maxDepth : Int) :
    Stmt.AllLegible (parse source maxDepth).program.statements :=
  Stmt.allLegible_of_listed _ (genuine_of_parse source maxDepth)

end PrattFrontEnd
