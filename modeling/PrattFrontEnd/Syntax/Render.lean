import PrattFrontEnd.Syntax.Node

/-!
The canonical rendering: source text in which every unary, binary and index expression stands in
parentheses. A node lists its pieces and child nodes, and a worklist writes them out, so that
trees of any depth can be rendered.
-/
namespace PrattFrontEnd

inductive Part where
  | text (text : String)
  | node (node : Node)

namespace Part

def ofName (n : Name) : Part := node (.expr (.name n))

def ofExpr (e : Expr) : Part := node (.expr e)

def ofBlock (b : Block) : Part := node (.stmt (.block b))

def weight : Part → Nat
  | text _ => 1
  | node n => n.weight + 1

def total : List Part → Nat
  | [] => 0
  | p :: ps => p.weight + total ps

theorem total_append (ps qs : List Part) : total (ps ++ qs) = total ps + total qs := by
  induction ps with
  | nil => simp [total]
  | cons p ps ih =>
    simp only [List.cons_append, total, ih]
    omega

def separated (separator : String) : List Node → List Part
  | [] => []
  | [n] => [node n]
  | n :: m :: rest => node n :: text separator :: separated separator (m :: rest)

theorem separated_weight_le (separator : String) (ns : List Node) :
    total (separated separator ns) ≤ Node.weights ns := by
  fun_induction separated separator ns with
  | case1 => simp [total]
  | case2 n => simp [total, weight, Node.weights]
  | case3 n m rest ih =>
    simp only [total, weight, Node.weights] at ih ⊢
    omega

end Part

def Expr.parts : Expr → List Part
  | bare token => [.text token.text]
  | name n => [.text n.text]
  | integer token _ => [.text token.text]
  | string _ value => [.text ("\"" ++ value ++ "\"")]
  | boolean _ value => [.text (if value then "true" else "false")]
  | unary _ operator operand => [.text ("(" ++ operator), .ofExpr operand, .text ")"]
  | binary _ left operator right =>
    [.text "(", .ofExpr left, .text (" " ++ operator ++ " "), .ofExpr right, .text ")"]
  | conditional _ condition consequence none =>
    [.text "if ", .ofExpr condition, .text " ", .ofBlock consequence]
  | conditional _ condition consequence (some alternative) =>
    [.text "if ", .ofExpr condition, .text " ", .ofBlock consequence, .text " else ",
      .ofBlock alternative]
  | function token parameters body =>
    .text (token.text ++ "(") :: Part.separated ", " (parameters.map fun n => .expr (.name n)) ++
      [.text ") ", .ofBlock body]
  | call _ callee arguments =>
    .ofExpr callee :: .text "(" :: Part.separated ", " (arguments.map .expr) ++ [.text ")"]
  | array _ elements => .text "[" :: Part.separated ", " (elements.map .expr) ++ [.text "]"]
  | index _ collection position =>
    [.text "(", .ofExpr collection, .text "[", .ofExpr position, .text "])"]

def Stmt.parts : Stmt → List Part
  | bare token => [.text token.text]
  | binding token name value =>
    [.text (token.text ++ " "), .ofName name, .text " = ", .ofExpr value, .text ";"]
  | result token value => [.text (token.text ++ " "), .ofExpr value, .text ";"]
  | expression _ value => [.ofExpr value]
  | block (.mk _ []) => [.text "\x7b \x7d"]
  | block (.mk _ (s :: ss)) =>
    .text "\x7b " :: Part.separated " " ((s :: ss).map .stmt) ++ [.text " \x7d"]

def Node.parts : Node → List Part
  | bare token => [.text token.text]
  | expr e => e.parts
  | stmt s => s.parts

theorem Expr.parts_weight_le (e : Expr) : Part.total e.parts ≤ e.weight := by
  cases e with
  | conditional token condition consequence alternative =>
    cases alternative <;>
      simp [Expr.parts, Part.ofExpr, Part.ofBlock, Part.total, Part.weight, Node.weight,
        Expr.weight, Stmt.weight] <;> omega
  | function token parameters body =>
    have items := Part.separated_weight_le ", " (parameters.map fun n => .expr (.name n))
    rw [Node.weights_names] at items
    simp [Expr.parts, Part.ofBlock, Part.total_append, Part.total, Part.weight, Node.weight,
      Expr.weight, Stmt.weight]
    omega
  | call token callee arguments =>
    have items := Part.separated_weight_le ", " (arguments.map .expr)
    rw [Node.weights_exprs] at items
    simp [Expr.parts, Part.ofExpr, Part.total_append, Part.total, Part.weight, Node.weight,
      Expr.weight]
    omega
  | array token elements =>
    have items := Part.separated_weight_le ", " (elements.map .expr)
    rw [Node.weights_exprs] at items
    simp [Expr.parts, Part.total_append, Part.total, Part.weight, Expr.weight]
    omega
  | _ => simp [Expr.parts, Part.ofExpr, Part.total, Part.weight, Node.weight, Expr.weight] <;> omega

theorem Stmt.parts_weight_le (s : Stmt) : Part.total s.parts ≤ s.weight := by
  cases s with
  | block b =>
    obtain ⟨token, statements⟩ := b
    cases statements with
    | nil => simp [Stmt.parts, Part.total, Part.weight, Stmt.weight, Block.weight]
    | cons s ss =>
      have items := Part.separated_weight_le " " ((s :: ss).map .stmt)
      rw [Node.weights_stmts] at items
      simp [Stmt.parts, Part.total_append, Part.total, Part.weight, Stmt.weight, Block.weight]
        at items ⊢
      omega
  | _ =>
    simp [Stmt.parts, Part.ofExpr, Part.ofName, Part.total, Part.weight, Node.weight, Expr.weight,
      Stmt.weight] <;> omega

theorem Node.parts_weight_le (n : Node) : Part.total n.parts ≤ n.weight := by
  cases n with
  | bare token => simp [Node.parts, Part.total, Part.weight, Node.weight]
  | expr e => exact e.parts_weight_le
  | stmt s => exact s.parts_weight_le

/-- Writes out a worklist of parts behind what has been written. -/
def Part.write (written : String) : List Part → String
  | [] => written
  | text t :: rest => write (written ++ t) rest
  | node n :: rest => write written (n.parts ++ rest)
termination_by parts => Part.total parts
decreasing_by
  · simp [total, weight]
  · have smaller := n.parts_weight_le
    simp only [total_append, total, weight]
    omega

def Node.render (n : Node) : String := Part.write "" [.node n]

def Expr.render (e : Expr) : String := (Node.expr e).render

def Stmt.render (s : Stmt) : String := (Node.stmt s).render

def Program.render (p : Program) : String := "\n".intercalate (p.statements.map Stmt.render)

end PrattFrontEnd
