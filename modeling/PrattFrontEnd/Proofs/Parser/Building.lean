import PrattFrontEnd.Proofs.Parser.Reading
import PrattFrontEnd.Proofs.Rendering.Composition

/-!
What is built from a source text, node by node. A node is made at a token that has been read, of a kind
that its rule asks for, and has its own text from there; so has every node that occurs in a tree,
whatever is reported on the way. Main statement: `genuine_of_parse`.
-/
namespace PrattFrontEnd

open Rule Expression Statement PrattFrontEnd.Parser

def Expr.Made : Expr → Prop
  | .bare _ => False
  | .name n => n.token.kind = .identifier ∧ n.text = n.token.text
  | .integer token value =>
    token.kind = .integer ∧ ∃ n : Nat, integerValue? token.text = some n ∧ value = n
  | .string token value => token.kind = .string ∧ value = token.text
  | .boolean token value =>
    token.kind ∈ Opening.boolean.kinds ∧ value = decide (token.kind = .trueWord)
  | .unary token operator _ => token.kind ∈ Opening.unary.kinds ∧ operator = token.text
  | .binary token _ operator _ => token.kind.operatorLevel?.isSome ∧ operator = token.text
  | .function token _ _ => token.kind = .functionWord
  | .conditional _ _ _ _ | .call _ _ _ | .array _ _ | .index _ _ _ => True

def Stmt.Made : Stmt → Prop
  | .bare _ => False
  | .binding token _ _ => token.kind = .letWord
  | .result token _ => token.kind = .returnWord
  | .expression _ _ => True
  | .block b => ∀ inner, .block inner ∉ b.statements

namespace Node

/-- A node as a rule makes it, at a token that has been read. -/
def Made (n : Node) : Prop :=
  n.token.Read ∧
    match n with
    | bare _ => False
    | expr e => e.Made
    | stmt s => s.Made

inductive Occurs (m : Node) : Node → Prop
  | here : Occurs m m
  | inside {n child : Node} (member : child ∈ n.children) (deeper : Occurs m child) : Occurs m n

/-- Every node that occurs in this one is as a rule makes it. -/
def Genuine (n : Node) : Prop := ∀ m : Node, m.Occurs n → m.Made

theorem Genuine.made {n : Node} (genuine : n.Genuine) : n.Made := genuine n .here

theorem Genuine.below {n : Node} (genuine : n.Genuine) : ∀ child ∈ n.children, child.Genuine :=
  fun _ member m occurs => genuine m (.inside member occurs)

theorem genuine_of_children {n : Node} (made : n.Made)
    (below : ∀ child ∈ n.children, child.Genuine) : n.Genuine := by
  intro m occurs
  cases occurs with
  | here => exact made
  | inside member deeper => exact below _ member m deeper

theorem genuine_leaf {n : Node} (made : n.Made) (leaf : n.children = []) : n.Genuine := by
  apply genuine_of_children made
  rw [leaf]
  exact List.forall_mem_nil _

@[simp] theorem children_function (token : Token) (parameters : List Name) (body : Block) :
    (expr (.function token parameters body)).children =
      (parameters.map fun n => expr (.name n)) ++ [stmt (.block body)] := by
  simp [children, fields, Expr.fields, Field.children, Field.ofBlock]

@[simp] theorem children_call (token : Token) (callee : Expr) (arguments : List Expr) :
    (expr (.call token callee arguments)).children = expr callee :: arguments.map expr := by
  simp [children, fields, Expr.fields, Field.children, Field.ofExpr]

@[simp] theorem children_array (token : Token) (elements : List Expr) :
    (expr (.array token elements)).children = elements.map expr := by
  simp [children, fields, Expr.fields, Field.children]

@[simp] theorem children_block (b : Block) : (stmt (.block b)).children = b.statements.map stmt := by
  simp [children, fields, Stmt.fields, Field.children]

end Node

def Operand.Genuine (operand : Operand) : Prop :=
  ∀ (bound : Precedence) (p q : Parser) (e : Expr), p.Reading →
    operand bound p = (.ok e, q) → (Node.expr e).Genuine

def Stmt.Listed (s : Stmt) : Prop := (Node.stmt s).Genuine ∧ ∀ b, s ≠ .block b

theorem genuine_name {t : Token} (read : t.Read) (kind : t.kind = .identifier) :
    (Node.expr (.name ⟨t, t.text⟩)).Genuine :=
  Node.genuine_leaf ⟨read, kind, rfl⟩ rfl

section

variable {operand : Operand} (steady : ∀ bound, (operand bound).Steady)
variable (genuine : operand.Genuine)
variable {p q : Parser} {e : Expr} {es : List Expr} {ns : List Name} {b : Block} {s : Stmt}

theorem genuine_furtherParameters (reading : p.Reading)
    (run : furtherParameters p = (.ok ns, q)) : ∀ n ∈ ns, (Node.expr (.name n)).Genuine := by
  induction ns generalizing p with
  | nil => exact List.forall_mem_nil _
  | cons n ns ih =>
    rcases (furtherParameters_eq_ok reading.ready.rounds).1 run with
      ⟨_, none, _⟩ | ⟨_, named, others, further, same⟩
    · cases none
    · cases same
      have here := genuine_name reading.advance.peek named
      exact List.forall_mem_cons.2 ⟨here, ih reading.advance.advance further⟩

theorem genuine_parameters (reading : p.Reading) (run : parameters p = (.ok ns, q)) :
    ∀ n ∈ ns, (Node.expr (.name n)).Genuine := by
  rcases parameters_eq_ok.1 run with ⟨_, rfl, _⟩ | ⟨named, others, r, further, _, rfl, _⟩
  · exact List.forall_mem_nil _
  · have here := genuine_name reading.peek named
    exact List.forall_mem_cons.2 ⟨here, genuine_furtherParameters reading.advance further⟩

include steady genuine

theorem genuine_furtherItems (reading : p.Reading)
    (run : furtherItems operand p = (.ok es, q)) : ∀ e ∈ es, (Node.expr e).Genuine := by
  induction es generalizing p with
  | nil => exact List.forall_mem_nil _
  | cons item es ih =>
    rcases (furtherItems_eq_ok steady reading.ready.rounds).1 run with
      ⟨_, none, _⟩ | ⟨_, item, r, others, built, further, same⟩
    · cases none
    · cases same
      have behind := reading.advance.advance.of_reaches ((steady .lowest).reaches built)
      have here := genuine _ _ r item reading.advance.advance built
      exact List.forall_mem_cons.2 ⟨here, ih behind further⟩

theorem genuine_items {closing : Kind} (reading : p.Reading)
    (run : items operand closing p = (.ok es, q)) : ∀ e ∈ es, (Node.expr e).Genuine := by
  rcases items_eq_ok.1 run with ⟨_, rfl, _⟩ | ⟨_, item, r, others, s, built, further, _, rfl, _⟩
  · exact List.forall_mem_nil _
  · have behind := reading.advance.of_reaches ((steady .lowest).reaches built)
    have here := genuine _ _ r item reading.advance built
    exact List.forall_mem_cons.2 ⟨here, genuine_furtherItems steady genuine behind further⟩

omit steady in
theorem genuine_any (reading : p.Reading) (run : any operand p = (.ok s, q)) : s.Listed := by
  unfold any at run
  split at run
  · rename_i kind
    obtain ⟨named, _, value, r, built, rfl, _⟩ := binding_eq_ok.1 run
    have name := genuine_name reading.peek named
    have operand := genuine _ _ r value reading.advance.advance.advance built
    refine ⟨Node.genuine_of_children ⟨reading.current, kind⟩ ?_, nofun⟩
    exact List.forall_mem_cons.2 ⟨name, List.forall_mem_singleton.2 operand⟩
  · rename_i kind
    obtain ⟨value, r, built, rfl, _⟩ := result_eq_ok.1 run
    have operand := genuine _ _ r value reading.advance built
    refine ⟨Node.genuine_of_children ⟨reading.current, kind⟩ ?_, nofun⟩
    exact List.forall_mem_singleton.2 operand
  · obtain ⟨value, r, built, rfl, _⟩ := expression_eq_ok.1 run
    have operand := genuine _ _ r value reading built
    refine ⟨Node.genuine_of_children ⟨reading.current, trivial⟩ ?_, nofun⟩
    exact List.forall_mem_singleton.2 operand

theorem genuine_sequence (closes : Kind → Bool) (rounds : Nat) (reading : p.Reading) :
    ∀ s ∈ (sequence operand closes rounds p).1, s.Listed := by
  induction rounds generalizing p with
  | zero => exact List.forall_mem_nil _
  | succ rounds ih =>
    by_cases goes : closes p.current.kind = true
    · rw [sequence_closed goes]
      exact List.forall_mem_nil _
    · cases built : any operand p with
      | mk result r =>
        have behind := reading.of_reaches ((steady_any steady).reaches built)
        cases result with
        | ok statement =>
          rw [sequence_built goes built]
          exact List.forall_mem_cons.2 ⟨genuine_any genuine reading built, ih behind.advance⟩
        | error failure =>
          rw [sequence_dropped goes built]
          exact ih (behind.of_reaches r.reaches_synchronize).advance

theorem genuine_block (reading : p.Reading) (run : Statement.block operand p = (b, q)) :
    (Node.stmt (.block b)).Genuine := by
  cases run
  have listed := genuine_sequence steady genuine endsBlock p.span reading.advance
  refine Node.genuine_of_children ⟨reading.current, ?_⟩ ?_
  · intro inner member
    exact (listed _ member).2 inner rfl
  · rw [Node.children_block, List.forall_mem_map]
    exact fun s member => (listed s member).1

theorem genuine_conditional (reading : p.Reading) (run : conditional operand p = (.ok e, q)) :
    (Node.expr e).Genuine := by
  obtain ⟨_, condition, r, built, _, _, consequence, s, block, further⟩ :=
    conditional_eq_ok.1 run
  have inside := reading.advance.advance
  have behind := (inside.of_reaches ((steady .lowest).reaches built)).advance.advance
  have first := genuine _ _ r condition inside built
  have second := genuine_block steady genuine behind block
  rcases further with ⟨_, _, alternative, last, rfl⟩ | ⟨_, _, rfl⟩
  · have reaches := reaches_block steady r.advance.advance
    rw [block] at reaches
    have third := genuine_block steady genuine (behind.of_reaches reaches).advance.advance last
    refine Node.genuine_of_children ⟨reading.current, trivial⟩ ?_
    exact List.forall_mem_cons.2 ⟨first, List.forall_mem_cons.2
      ⟨second, List.forall_mem_singleton.2 third⟩⟩
  · refine Node.genuine_of_children ⟨reading.current, trivial⟩ ?_
    exact List.forall_mem_cons.2 ⟨first, List.forall_mem_singleton.2 second⟩

theorem genuine_function (reading : p.Reading) (kind : p.current.kind = .functionWord)
    (run : function operand p = (.ok e, q)) : (Node.expr e).Genuine := by
  obtain ⟨_, names, r, listed, _, body, block, rfl⟩ := function_eq_ok.1 run
  have behind := (reading.advance.of_reaches (steady_parameters.reaches listed)).advance
  have parameters := genuine_parameters reading.advance listed
  have body := genuine_block steady genuine behind block
  refine Node.genuine_of_children ⟨reading.current, kind⟩ ?_
  rw [Node.children_function, List.forall_mem_append, List.forall_mem_map]
  exact ⟨parameters, List.forall_mem_singleton.2 body⟩

theorem genuine_opening {rule : Opening} (reading : p.Reading)
    (opens : RuleTable.standard.opening p.current.kind = some rule)
    (run : opening operand rule p = (.ok e, q)) : (Node.expr e).Genuine := by
  have kinds := Kind.mem_kinds_of_opening opens
  cases rule with
  | name =>
    cases run
    exact genuine_name reading.current (List.mem_singleton.1 kinds)
  | integer =>
    obtain ⟨value, read, rfl, _⟩ := integer_eq_ok.1 run
    exact Node.genuine_leaf ⟨reading.current, List.mem_singleton.1 kinds, value, read, rfl⟩ rfl
  | string =>
    obtain ⟨rfl, _⟩ := string_eq_ok.1 run
    exact Node.genuine_leaf ⟨reading.current, List.mem_singleton.1 kinds, rfl⟩ rfl
  | boolean =>
    obtain ⟨rfl, _⟩ := boolean_eq_ok.1 run
    exact Node.genuine_leaf ⟨reading.current, kinds, rfl⟩ rfl
  | unary =>
    obtain ⟨right, built, rfl⟩ := unary_eq_ok.1 run
    have operand := genuine _ _ q right reading.advance built
    refine Node.genuine_of_children ⟨reading.current, kinds, rfl⟩ ?_
    exact List.forall_mem_singleton.2 operand
  | group =>
    obtain ⟨r, built, _, _⟩ := group_eq_ok.1 run
    exact genuine _ _ r e reading.advance built
  | conditional => exact genuine_conditional steady genuine reading run
  | function => exact genuine_function steady genuine reading (List.mem_singleton.1 kinds) run
  | array =>
    obtain ⟨elements, listed, rfl⟩ := array_eq_ok.1 run
    have inside := genuine_items steady genuine reading listed
    refine Node.genuine_of_children ⟨reading.current, trivial⟩ ?_
    rw [Node.children_array, List.forall_mem_map]
    exact inside

theorem genuine_continuation {left longer : Expr} {step : Continuation} (reading : p.Reading)
    (ruled : RuleTable.standard.continuation p.peek.kind = some step)
    (before : (Node.expr left).Genuine)
    (run : continuation operand left step p.advance = (.ok longer, q)) :
    (Node.expr longer).Genuine := by
  cases step with
  | binary =>
    obtain ⟨right, built, rfl⟩ := binary_eq_ok.1 run
    have behind := genuine _ _ q right reading.advance.advance built
    refine Node.genuine_of_children ⟨reading.peek, Kind.operatorLevel?_of_binary ruled, rfl⟩ ?_
    exact List.forall_mem_cons.2 ⟨before, List.forall_mem_singleton.2 behind⟩
  | call =>
    obtain ⟨arguments, listed, rfl⟩ := call_eq_ok.1 run
    have inside := genuine_items steady genuine reading.advance listed
    refine Node.genuine_of_children ⟨reading.peek, trivial⟩ ?_
    rw [Node.children_call, List.forall_mem_cons, List.forall_mem_map]
    exact ⟨before, inside⟩
  | index =>
    obtain ⟨position, r, built, _, rfl, _⟩ := index_eq_ok.1 run
    have inside := genuine _ _ r position reading.advance.advance built
    refine Node.genuine_of_children ⟨reading.peek, trivial⟩ ?_
    exact List.forall_mem_cons.2 ⟨before, List.forall_mem_singleton.2 inside⟩

theorem genuine_start {bound : Precedence} (reading : p.Reading)
    (run : start operand bound p = (.ok e, q)) : (Node.expr e).Genuine := by
  obtain ⟨rule, opens, left, r, opened, climbed⟩ := (start_eq_ok steady).1 run
  have behind := reading.of_reaches ((steady_opening steady rule).reaches opened)
  rw [reading.ready.table] at opens
  have invariant := onward_invariant (q := q) (e := e)
    (fun left p => p.Reading ∧ (Node.expr left).Genuine) steady
    (fun left longer p q step _ before _ ruled run =>
      ⟨before.1.advance.of_reaches ((steady_continuation steady left step).reaches run),
        genuine_continuation steady genuine before.1 ruled before.2 run⟩)
    behind.ready ⟨behind, genuine_opening steady genuine reading opens opened⟩ climbed
  exact invariant.1.2

end

theorem genuine_within (levels : Nat) : (within levels).Genuine := by
  induction levels with
  | zero =>
    intro bound p q e _ run
    exact absurd run fail_ne_ok
  | succ levels ih =>
    intro bound p q e reading run
    obtain ⟨r, started, _⟩ := within_eq_ok.1 run
    exact genuine_start (Expression.steady_within levels) ih (reading.at_depth (p.depth + 1)) started

/-- Every statement that is parsed from a source text is genuine, with diagnostics or without. -/
theorem genuine_of_parse (source : String) (maxDepth : Int) :
    ∀ s ∈ (parse source maxDepth).program.statements, s.Listed := by
  have whole := genuine_sequence (Expression.steady_within (ofString source maxDepth).levels)
    (genuine_within _) endsProgram (ofString source maxDepth).span
    (reading_ofString source maxDepth)
  exact whole

end PrattFrontEnd
