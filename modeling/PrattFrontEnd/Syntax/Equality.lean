import PrattFrontEnd.Syntax.Node

/-!
Structural equality: two nodes are the same when they are of one kind and their fields are the same.
Tokens are not compared. A worklist of pairs is used up, so that trees of any depth can be compared.
-/
namespace PrattFrontEnd

def Node.pairs (a b : Node) : List (Field × Field) :=
  (a.fields.map (·.2)).zip (b.fields.map (·.2))

theorem Field.total_zip_le (fs gs : List Field) :
    Field.total ((fs.zip gs).map (·.1)) ≤ Field.total fs := by
  induction fs generalizing gs with
  | nil => simp [Field.total]
  | cons f fs ih =>
    cases gs with
    | nil => simp [Field.total]
    | cons g gs =>
      have tail := ih gs
      simp only [List.zip_cons_cons, List.map_cons, Field.total]
      omega

def Field.each (ns : List Node) : List Field := ns.map node

theorem Field.total_each_le (ns : List Node) : Field.total (each ns) ≤ Node.weights ns := by
  unfold each
  induction ns with
  | nil => simp [Field.total]
  | cons n ns ih =>
    simp only [List.map_cons, Field.total, weight, Node.weights]
    omega

/-- Whether the two fields of every pair are the same. -/
def Field.agree : List (Field × Field) → Bool
  | [] => true
  | (text s, text t) :: rest => s = t && agree rest
  | (number m, number n) :: rest => m = n && agree rest
  | (truth p, truth q) :: rest => p = q && agree rest
  | (absent, absent) :: rest => agree rest
  | (node a, node b) :: rest => a.kindName = b.kindName && agree (a.pairs b ++ rest)
  | (nodes as, nodes bs) :: rest =>
    as.length = bs.length && agree ((each as).zip (each bs) ++ rest)
  | _ :: _ => false
termination_by work => Field.total (work.map (·.1))
decreasing_by
  · simp [total, weight]
  · simp [total, weight]
  · simp [total, weight]
  · simp [total, weight]
  · have fields : total ((a.pairs b).map (·.1)) ≤ _ := total_zip_le _ _
    have smaller := a.fields_weight_lt
    simp only [List.map_append, total_append, List.map_cons, total, weight_node]
    omega
  · have pairs := total_zip_le (each as) (each bs)
    have entries := total_each_le as
    simp only [List.map_append, total_append, List.map_cons, total, weight_nodes]
    omega

def Node.same (a b : Node) : Bool := Field.agree [(.node a, .node b)]

def Expr.same (a b : Expr) : Bool := (Node.expr a).same (.expr b)

def Stmt.same (a b : Stmt) : Bool := (Node.stmt a).same (.stmt b)

def Program.same (p q : Program) : Bool :=
  p.statements.length = q.statements.length &&
    (p.statements.zip q.statements).all fun (a, b) => a.same b

end PrattFrontEnd
