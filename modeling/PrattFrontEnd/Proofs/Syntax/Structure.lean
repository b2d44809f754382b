import PrattFrontEnd.Proofs.Syntax.Filling
import PrattFrontEnd.Proofs.Syntax.Sameness

/-!
What structural equality compares: kinds, plain fields and children, one by one, and never tokens. The
worklist of pairs and the worklist of slots agree on it. Main statement: `sameness_is_structural`.
-/
namespace PrattFrontEnd

mutual

/-- Fields are equal when they hold one plain value, or nodes that are equal one by one. -/
inductive Field.Equal : Field → Field → Prop
  | text (value : String) : Field.Equal (.text value) (.text value)
  | number (value : Int) : Field.Equal (.number value) (.number value)
  | truth (value : Bool) : Field.Equal (.truth value) (.truth value)
  | absent : Field.Equal .absent .absent
  | node {a b : Node} (children : Node.Equal a b) : Field.Equal (.node a) (.node b)
  | nodes {as bs : List Node} (children : List.Forall₂ Node.Equal as bs) :
      Field.Equal (.nodes as) (.nodes bs)

inductive Node.Equal : Node → Node → Prop
  | intro {a b : Node} (kinds : a.kindName = b.kindName)
      (fields : List.Forall₂ Field.Equal (a.fields.map (·.2)) (b.fields.map (·.2))) :
      Node.Equal a b

end

def Program.Equal (p q : Program) : Prop :=
  List.Forall₂ (fun s t => (Node.stmt s).Equal (.stmt t)) p.statements q.statements

theorem Node.length_fields {a b : Node} (kinds : a.kindName = b.kindName) :
    (a.fields.map (·.2)).length = (b.fields.map (·.2)).length := by
  have names : a.fields.map (·.1) = b.fields.map (·.1) := by
    rw [a.names_of_fields, b.names_of_fields, kinds]
  have lengths := congrArg List.length names
  rw [List.length_map, List.length_map] at lengths ⊢
  exact lengths

theorem Node.equal_iff (a b : Node) :
    a.Equal b ↔ a.kindName = b.kindName ∧ ∀ pair ∈ a.pairs b, pair.1.Equal pair.2 := by
  constructor
  · rintro ⟨kinds, fields⟩
    exact ⟨kinds, fun _ member => List.forall₂_zip fields member⟩
  · rintro ⟨kinds, pairs⟩
    exact ⟨kinds, List.forall₂_iff_zip.2 ⟨Node.length_fields kinds, fun member => pairs _ member⟩⟩

namespace Field

theorem equal_node_iff (a b : Node) : (node a).Equal (node b) ↔ a.Equal b := by
  constructor
  · rintro (_ | _ | _ | _ | children)
    exact children
  · exact .node

theorem equal_nodes_iff (as bs : List Node) :
    (nodes as).Equal (nodes bs) ↔
      as.length = bs.length ∧ ∀ pair ∈ (each as).zip (each bs), pair.1.Equal pair.2 := by
  have single : (nodes as).Equal (nodes bs) ↔ List.Forall₂ Node.Equal as bs := by
    constructor
    · rintro (_ | _ | _ | _ | _ | children)
      exact children
    · exact .nodes
  rw [single, List.forall₂_iff_zip, each, each, List.zip_map]
  simp only [List.forall_mem_map, Prod.forall, Prod.map_apply, equal_node_iff]

theorem compares_equal : Compares Field.Equal where
  sort pair := by cases pair <;> rfl
  text s t := ⟨fun | .text _ => rfl, fun same => same ▸ .text s⟩
  number m n := ⟨fun | .number _ => rfl, fun same => same ▸ .number m⟩
  truth p q := ⟨fun | .truth _ => rfl, fun same => same ▸ .truth p⟩
  absent := .absent
  node a b := (equal_node_iff a b).trans (a.equal_iff b)
  nodes := equal_nodes_iff

end Field

theorem Node.same_iff_equal (a b : Node) : a.same b = true ↔ a.Equal b := by
  rw [Node.same, Field.compares_equal.agree_iff, List.forall_mem_singleton, Field.equal_node_iff]

theorem Program.same_iff_equal (p q : Program) : p.same q = true ↔ p.Equal q := by
  rw [Program.Equal, List.forall₂_iff_zip, Program.same, Bool.and_eq_true, decide_eq_true_eq,
    List.all_eq_true]
  simp only [Prod.forall, Stmt.same, Node.same_iff_equal]

theorem Program.record_eq_iff (p q : Program) :
    p.record = q.record ↔ p.statements.map Stmt.record = q.statements.map Stmt.record := by
  simp only [Program.record, Record.record.injEq, List.cons.injEq, Prod.mk.injEq,
    Record.list.injEq, true_and, and_true]

section Tokens

variable (f : Token → Token)

def Name.mapTokens (n : Name) : Name := ⟨f n.token, n.text⟩

mutual

def Expr.mapTokens : Expr → Expr
  | .bare token => .bare (f token)
  | .name n => .name (n.mapTokens f)
  | .integer token value => .integer (f token) value
  | .string token value => .string (f token) value
  | .boolean token value => .boolean (f token) value
  | .unary token operator operand => .unary (f token) operator operand.mapTokens
  | .binary token left operator right =>
    .binary (f token) left.mapTokens operator right.mapTokens
  | .conditional token condition consequence none =>
    .conditional (f token) condition.mapTokens consequence.mapTokens none
  | .conditional token condition consequence (some alternative) =>
    .conditional (f token) condition.mapTokens consequence.mapTokens (some alternative.mapTokens)
  | .function token parameters body =>
    .function (f token) (parameters.map (Name.mapTokens f)) body.mapTokens
  | .call token callee arguments =>
    .call (f token) callee.mapTokens (Expr.mapAllTokens arguments)
  | .array token elements => .array (f token) (Expr.mapAllTokens elements)
  | .index token collection position =>
    .index (f token) collection.mapTokens position.mapTokens
termination_by structural e => e

def Stmt.mapTokens : Stmt → Stmt
  | .bare token => .bare (f token)
  | .binding token name value => .binding (f token) (name.mapTokens f) value.mapTokens
  | .result token value => .result (f token) value.mapTokens
  | .expression token value => .expression (f token) value.mapTokens
  | .block b => .block b.mapTokens
termination_by structural s => s

def Block.mapTokens : Block → Block
  | .mk token statements => .mk (f token) (Stmt.mapAllTokens statements)
termination_by structural b => b

def Expr.mapAllTokens : List Expr → List Expr
  | [] => []
  | e :: es => e.mapTokens :: Expr.mapAllTokens es
termination_by structural es => es

def Stmt.mapAllTokens : List Stmt → List Stmt
  | [] => []
  | s :: ss => s.mapTokens :: Stmt.mapAllTokens ss
termination_by structural ss => ss

end

def Node.mapTokens : Node → Node
  | .bare token => .bare (f token)
  | .expr e => .expr (e.mapTokens f)
  | .stmt s => .stmt (s.mapTokens f)

def Program.mapTokens (p : Program) : Program := ⟨Stmt.mapAllTokens f p.statements⟩

theorem Name.record_mapTokens (n : Name) : (n.mapTokens f).record = n.record := rfl

mutual

theorem Expr.record_mapTokens : (e : Expr) → (e.mapTokens f).record = e.record
  | .bare _ | .name _ | .integer _ _ | .string _ _ | .boolean _ _ => rfl
  | .unary _ _ operand => by
    rw [Expr.mapTokens, Expr.record, Expr.record, operand.record_mapTokens]
  | .binary _ left _ right => by
    rw [Expr.mapTokens, Expr.record, Expr.record, left.record_mapTokens, right.record_mapTokens]
  | .conditional _ condition consequence none => by
    rw [Expr.mapTokens, Expr.record, Expr.record, condition.record_mapTokens,
      consequence.record_mapTokens]
  | .conditional _ condition consequence (some alternative) => by
    rw [Expr.mapTokens, Expr.record, Expr.record, condition.record_mapTokens,
      consequence.record_mapTokens, alternative.record_mapTokens]
  | .function _ parameters body => by
    have names : (parameters.map (Name.mapTokens f)).map Name.record = parameters.map Name.record :=
      List.map_map
    rw [Expr.mapTokens, Expr.record, Expr.record, names, body.record_mapTokens]
  | .call _ callee arguments => by
    rw [Expr.mapTokens, Expr.record, Expr.record, callee.record_mapTokens,
      Expr.records_mapTokens arguments]
  | .array _ elements => by
    rw [Expr.mapTokens, Expr.record, Expr.record, Expr.records_mapTokens elements]
  | .index _ collection position => by
    rw [Expr.mapTokens, Expr.record, Expr.record, collection.record_mapTokens,
      position.record_mapTokens]
termination_by structural e => e

theorem Stmt.record_mapTokens : (s : Stmt) → (s.mapTokens f).record = s.record
  | .bare _ => rfl
  | .binding _ name value => by
    rw [Stmt.mapTokens, Stmt.record, Stmt.record, name.record_mapTokens, value.record_mapTokens]
  | .result _ value | .expression _ value => by
    rw [Stmt.mapTokens, Stmt.record, Stmt.record, value.record_mapTokens]
  | .block b => by
    rw [Stmt.mapTokens, Stmt.record, Stmt.record, b.record_mapTokens]
termination_by structural s => s

theorem Block.record_mapTokens : (b : Block) → (b.mapTokens f).record = b.record
  | .mk _ statements => by
    rw [Block.mapTokens, Block.record, Block.record, Stmt.records_mapTokens statements]
termination_by structural b => b

theorem Expr.records_mapTokens : (es : List Expr) →
    Expr.records (Expr.mapAllTokens f es) = Expr.records es
  | [] => rfl
  | e :: es => by
    rw [Expr.mapAllTokens, Expr.records, Expr.records, e.record_mapTokens,
      Expr.records_mapTokens es]
termination_by structural es => es

theorem Stmt.records_mapTokens : (ss : List Stmt) →
    Stmt.records (Stmt.mapAllTokens f ss) = Stmt.records ss
  | [] => rfl
  | s :: ss => by
    rw [Stmt.mapAllTokens, Stmt.records, Stmt.records, s.record_mapTokens,
      Stmt.records_mapTokens ss]
termination_by structural ss => ss

end

theorem Node.record_mapTokens : (n : Node) → (n.mapTokens f).record = n.record
  | .bare _ => rfl
  | .expr e => e.record_mapTokens f
  | .stmt s => s.record_mapTokens f

theorem Program.records_mapTokens (p : Program) :
    (p.mapTokens f).statements.map Stmt.record = p.statements.map Stmt.record := by
  rw [← Stmt.records_eq_map, ← Stmt.records_eq_map]
  exact Stmt.records_mapTokens f p.statements

end Tokens

theorem equivalence_of_key {α β : Type} {related : α → α → Prop} {key : α → β}
    (same : ∀ a b, related a b ↔ key a = key b) : Equivalence related where
  refl a := (same a a).2 rfl
  symm first := (same _ _).2 ((same _ _).1 first).symm
  trans first second := (same _ _).2 (((same _ _).1 first).trans ((same _ _).1 second))

/-- Two nodes are the same, by the worklist of pairs, exactly when they are of one kind and hold equal
fields all the way down, and exactly when the worklist of slots writes one record for both; programs
likewise. This is an equivalence, and other tokens make no difference to it. -/
theorem sameness_is_structural :
    (∀ a b : Node, (a.same b = true ↔ a.Equal b) ∧ (a.same b = true ↔ a.toRecord = b.toRecord)) ∧
      (∀ p q : Program,
        (p.same q = true ↔ p.Equal q) ∧ (p.same q = true ↔ p.toRecord = q.toRecord)) ∧
      (Equivalence fun a b : Node => a.same b = true) ∧
      (Equivalence fun p q : Program => p.same q = true) ∧
      (∀ (f g : Token → Token) (a b : Node), (a.mapTokens f).same (b.mapTokens g) = a.same b) ∧
      ∀ (f g : Token → Token) (p q : Program), (p.mapTokens f).same (q.mapTokens g) = p.same q := by
  refine ⟨fun a b => ⟨a.same_iff_equal b, ?_⟩, fun p q => ⟨p.same_iff_equal q, ?_⟩,
    equivalence_of_key Node.same_iff_record, equivalence_of_key Program.same_iff_record, ?_, ?_⟩
  · rw [a.toRecord_eq, b.toRecord_eq]
    exact a.same_iff_record b
  · rw [p.toRecord_eq, q.toRecord_eq, p.record_eq_iff q]
    exact p.same_iff_record q
  · intro f g a b
    rw [Bool.eq_iff_iff, Node.same_iff_record, Node.same_iff_record, a.record_mapTokens,
      b.record_mapTokens]
  · intro f g p q
    rw [Bool.eq_iff_iff, Program.same_iff_record, Program.same_iff_record, p.records_mapTokens,
      q.records_mapTokens]

end PrattFrontEnd
