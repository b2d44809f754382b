import PrattFrontEnd.Syntax.Equality
import PrattFrontEnd.Syntax.Record

/-!
Structural equality and records. Two trees are the same, by the worklist of pairs, exactly when they
have the same record. Main statements: `Field.Compares.agree_iff`, what the worklist finds out, and
`Program.same_iff_record`.
-/
namespace PrattFrontEnd

def fieldNames : String → List String
  | "Identifier" | "IntegerLiteral" | "StringLiteral" | "Boolean" => ["value"]
  | "PrefixExpression" => ["operator", "right"]
  | "InfixExpression" => ["left", "operator", "right"]
  | "IfExpression" => ["condition", "consequence", "alternative"]
  | "FunctionLiteral" => ["parameters", "body"]
  | "CallExpression" => ["function", "arguments"]
  | "ArrayLiteral" => ["elements"]
  | "IndexExpression" => ["left", "index"]
  | "LetStatement" => ["name", "value"]
  | "ReturnStatement" => ["return_value"]
  | "ExpressionStatement" => ["expression"]
  | "BlockStatement" => ["statements"]
  | _ => []

theorem Node.names_of_fields (n : Node) : n.fields.map (·.1) = fieldNames n.kindName := by
  cases n with
  | bare token => rfl
  | expr e => cases e <;> rfl
  | stmt s => cases s <;> rfl

namespace Field

theorem records_eq_iff {fs gs : List (String × Field)} (names : fs.map (·.1) = gs.map (·.1)) :
    fs.map (fun f => (f.1, f.2.record)) = gs.map (fun g => (g.1, g.2.record)) ↔
      ∀ pair ∈ (fs.map (·.2)).zip (gs.map (·.2)), pair.1.record = pair.2.record := by
  induction fs generalizing gs with
  | nil =>
    cases gs with
    | nil => simp
    | cons g gs => cases names
  | cons f fs ih =>
    cases gs with
    | nil => cases names
    | cons g gs =>
      simp only [List.map_cons, List.cons.injEq] at names
      simp only [List.map_cons, List.cons.injEq, List.zip_cons_cons, List.forall_mem_cons,
        Prod.mk.injEq, names.1, true_and, ih names.2]

theorem each_eq_iff {as bs : List Node} :
    as.map Node.record = bs.map Node.record ↔
      as.length = bs.length ∧ ∀ pair ∈ (each as).zip (each bs), pair.1.record = pair.2.record := by
  unfold each
  induction as generalizing bs with
  | nil => cases bs <;> simp
  | cons a as ih =>
    cases bs with
    | nil => simp
    | cons b bs =>
      simp only [List.map_cons, List.cons.injEq, List.zip_cons_cons, List.forall_mem_cons, ih,
        List.length_cons, Nat.add_right_cancel_iff, Field.record]
      exact and_left_comm

end Field

def Record.sort : Record → Nat
  | .text _ => 0
  | .number _ => 1
  | .truth _ => 2
  | .absent => 3
  | .record _ _ => 4
  | .list _ => 5

def Field.sort : Field → Nat
  | .text _ => 0
  | .number _ => 1
  | .truth _ => 2
  | .absent => 3
  | .node _ => 4
  | .nodes _ => 5

theorem Field.sort_record (f : Field) : f.record.sort = f.sort := by
  cases f with
  | node n =>
    rw [Field.record, n.record_eq]
    rfl
  | _ => rfl

theorem Node.record_eq_iff (a b : Node) :
    a.record = b.record ↔
      a.kindName = b.kindName ∧ ∀ pair ∈ a.pairs b, pair.1.record = pair.2.record := by
  rw [a.record_eq, b.record_eq, Record.record.injEq]
  constructor
  · rintro ⟨kinds, fields⟩
    have names : a.fields.map (·.1) = b.fields.map (·.1) := by
      rw [a.names_of_fields, b.names_of_fields, kinds]
    exact ⟨kinds, (Field.records_eq_iff names).1 fields⟩
  · rintro ⟨kinds, pairs⟩
    have names : a.fields.map (·.1) = b.fields.map (·.1) := by
      rw [a.names_of_fields, b.names_of_fields, kinds]
    exact ⟨kinds, (Field.records_eq_iff names).2 pairs⟩

/-- A relation between fields that is settled by plain values, kinds and lengths, and by the fields of
children. -/
structure Field.Compares (related : Field → Field → Prop) : Prop where
  sort {f g : Field} (pair : related f g) : f.sort = g.sort
  text (s t : String) : related (.text s) (.text t) ↔ s = t
  number (m n : Int) : related (.number m) (.number n) ↔ m = n
  truth (p q : Bool) : related (.truth p) (.truth q) ↔ p = q
  absent : related .absent .absent
  node (a b : Node) : related (.node a) (.node b) ↔
    a.kindName = b.kindName ∧ ∀ pair ∈ a.pairs b, related pair.1 pair.2
  nodes (as bs : List Node) : related (.nodes as) (.nodes bs) ↔
    as.length = bs.length ∧ ∀ pair ∈ (each as).zip (each bs), related pair.1 pair.2

/-- The worklist of pairs finds out whether the fields of every pair are related. -/
theorem Field.Compares.agree_iff {related : Field → Field → Prop} (compares : Compares related)
    (work : List (Field × Field)) :
    agree work = true ↔ ∀ pair ∈ work, related pair.1 pair.2 := by
  fun_induction agree work with
  | case1 => simp
  | case2 s t rest ih => simp [ih, compares.text]
  | case3 m n rest ih => simp [ih, compares.number]
  | case4 p q rest ih => simp [ih, compares.truth]
  | case5 rest ih => simp [ih, compares.absent]
  | case6 a b rest ih =>
    rw [Bool.and_eq_true, decide_eq_true_eq, ih, List.forall_mem_append, List.forall_mem_cons,
      compares.node a b]
    exact and_assoc.symm
  | case7 as bs rest ih =>
    rw [Bool.and_eq_true, decide_eq_true_eq, ih, List.forall_mem_append, List.forall_mem_cons,
      compares.nodes as bs]
    exact and_assoc.symm
  | case8 pair rest texts numbers truths absents singles lists =>
    obtain ⟨f, g⟩ := pair
    simp only [Bool.false_eq_true, false_iff]
    intro all
    have sorts := compares.sort (all (f, g) List.mem_cons_self)
    cases f <;> cases g <;> first
      | cases sorts; done
      | exact texts _ _ rfl
      | exact numbers _ _ rfl
      | exact truths _ _ rfl
      | exact absents rfl
      | exact singles _ _ rfl
      | exact lists _ _ rfl

theorem Field.compares_records : Compares fun f g => f.record = g.record where
  sort {f g} same := by rw [← f.sort_record, ← g.sort_record, same]
  text s t := by simp only [Field.record, Record.text.injEq]
  number m n := by simp only [Field.record, Record.number.injEq]
  truth p q := by simp only [Field.record, Record.truth.injEq]
  absent := rfl
  node a b := a.record_eq_iff b
  nodes as bs := by simp only [Field.record, Record.list.injEq, each_eq_iff]

theorem Node.same_iff_record (a b : Node) : a.same b = true ↔ a.record = b.record := by
  rw [Node.same, Field.compares_records.agree_iff, List.forall_mem_singleton]
  rfl

theorem Stmt.same_iff_record (a b : Stmt) : a.same b = true ↔ a.record = b.record :=
  Node.same_iff_record (.stmt a) (.stmt b)

theorem Program.same_iff_record (p q : Program) :
    p.same q = true ↔ p.statements.map Stmt.record = q.statements.map Stmt.record := by
  obtain ⟨ss⟩ := p
  obtain ⟨ts⟩ := q
  simp only [Program.same, Bool.and_eq_true, decide_eq_true_eq]
  induction ss generalizing ts with
  | nil => cases ts <;> simp
  | cons s ss ih =>
    cases ts with
    | nil => simp
    | cons t ts =>
      have rest := ih ts
      simp only [List.length_cons, Nat.add_right_cancel_iff, List.zip_cons_cons, List.all_cons,
        Bool.and_eq_true, List.map_cons, List.cons.injEq, Stmt.same_iff_record] at rest ⊢
      rw [← rest]
      exact and_left_comm

end PrattFrontEnd
