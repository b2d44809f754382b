import PrattFrontEnd.Syntax.Tree

/-!
Nodes of any sort under one type, each with its kind and its fields in order. The fields are what
two nodes are compared by and what a node is written out as; tokens are not among them.
-/
namespace PrattFrontEnd

inductive Node where
  | bare (token : Token)
  | expr (e : Expr)
  | stmt (s : Stmt)

namespace Node

def token : Node → Token
  | bare token => token
  | expr e => e.token
  | stmt s => s.token

end Node

def Expr.kindName : Expr → String
  | bare .. => "Expression"
  | name .. => "Identifier"
  | integer .. => "IntegerLiteral"
  | string .. => "StringLiteral"
  | boolean .. => "Boolean"
  | unary .. => "PrefixExpression"
  | binary .. => "InfixExpression"
  | conditional .. => "IfExpression"
  | function .. => "FunctionLiteral"
  | call .. => "CallExpression"
  | array .. => "ArrayLiteral"
  | index .. => "IndexExpression"

def Stmt.kindName : Stmt → String
  | bare .. => "Statement"
  | binding .. => "LetStatement"
  | result .. => "ReturnStatement"
  | expression .. => "ExpressionStatement"
  | block .. => "BlockStatement"

def Node.kindName : Node → String
  | bare .. => "Node"
  | expr e => e.kindName
  | stmt s => s.kindName

inductive Field where
  | text (value : String)
  | number (value : Int)
  | truth (value : Bool)
  | absent
  | node (child : Node)
  | nodes (children : List Node)

namespace Field

def ofName (n : Name) : Field := node (.expr (.name n))

def ofExpr (e : Expr) : Field := node (.expr e)

def ofBlock (b : Block) : Field := node (.stmt (.block b))

end Field

def Expr.fields : Expr → List (String × Field)
  | bare _ => []
  | name n => [("value", .text n.text)]
  | integer _ value => [("value", .number value)]
  | string _ value => [("value", .text value)]
  | boolean _ value => [("value", .truth value)]
  | unary _ operator operand => [("operator", .text operator), ("right", .ofExpr operand)]
  | binary _ left operator right =>
    [("left", .ofExpr left), ("operator", .text operator), ("right", .ofExpr right)]
  | conditional _ condition consequence alternative =>
    [("condition", .ofExpr condition), ("consequence", .ofBlock consequence),
      ("alternative", (alternative.map Field.ofBlock).getD .absent)]
  | function _ parameters body =>
    [("parameters", .nodes (parameters.map fun n => .expr (.name n))), ("body", .ofBlock body)]
  | call _ callee arguments =>
    [("function", .ofExpr callee), ("arguments", .nodes (arguments.map .expr))]
  | array _ elements => [("elements", .nodes (elements.map .expr))]
  | index _ collection position => [("left", .ofExpr collection), ("index", .ofExpr position)]

def Stmt.fields : Stmt → List (String × Field)
  | bare _ => []
  | binding _ name value => [("name", .ofName name), ("value", .ofExpr value)]
  | result _ value => [("return_value", .ofExpr value)]
  | expression _ value => [("expression", .ofExpr value)]
  | block b => [("statements", .nodes (b.statements.map .stmt))]

def Node.fields : Node → List (String × Field)
  | bare _ => []
  | expr e => e.fields
  | stmt s => s.fields

mutual

/-- How much there is to a tree: every node and every field counts, list entries included. -/
def Expr.weight : Expr → Nat
  | .bare _ | .name _ | .integer _ _ | .string _ _ | .boolean _ _ => 2
  | .unary _ _ operand => operand.weight + 4
  | .binary _ left _ right => left.weight + right.weight + 6
  | .conditional _ condition consequence none => condition.weight + consequence.weight + 6
  | .conditional _ condition consequence (some alternative) =>
    condition.weight + consequence.weight + alternative.weight + 8
  | .function _ parameters body => 4 * parameters.length + body.weight + 6
  | .call _ callee arguments => callee.weight + Expr.weights arguments + 6
  | .array _ elements => Expr.weights elements + 4
  | .index _ collection position => collection.weight + position.weight + 6
termination_by structural e => e

def Stmt.weight : Stmt → Nat
  | .bare _ => 2
  | .binding _ _ value => value.weight + 8
  | .result _ value | .expression _ value => value.weight + 4
  | .block b => b.weight
termination_by structural s => s

def Block.weight : Block → Nat
  | .mk _ statements => Stmt.weights statements + 4
termination_by structural b => b

def Expr.weights : List Expr → Nat
  | [] => 0
  | e :: es => e.weight + Expr.weights es + 2
termination_by structural es => es

def Stmt.weights : List Stmt → Nat
  | [] => 0
  | s :: ss => s.weight + Stmt.weights ss + 2
termination_by structural ss => ss

end

def Node.weight : Node → Nat
  | bare _ => 2
  | expr e => e.weight
  | stmt s => s.weight

def Node.weights : List Node → Nat
  | [] => 0
  | n :: ns => n.weight + Node.weights ns + 2

theorem Node.weights_exprs (es : List Expr) : Node.weights (es.map .expr) = Expr.weights es := by
  induction es with
  | nil => rfl
  | cons e es ih => simp only [List.map_cons, Node.weights, Node.weight, Expr.weights, ih]

theorem Node.weights_stmts (ss : List Stmt) : Node.weights (ss.map .stmt) = Stmt.weights ss := by
  induction ss with
  | nil => rfl
  | cons s ss ih => simp only [List.map_cons, Node.weights, Node.weight, Stmt.weights, ih]

theorem Node.weights_names (names : List Name) :
    Node.weights (names.map fun n => .expr (.name n)) = 4 * names.length := by
  induction names with
  | nil => rfl
  | cons n names ih =>
    simp only [List.map_cons, Node.weights, Node.weight, Expr.weight, ih, List.length_cons]
    omega

def Field.weight : Field → Nat
  | text _ | number _ | truth _ | absent => 1
  | node child => child.weight + 1
  | nodes children => Node.weights children + 1

def Field.total : List Field → Nat
  | [] => 0
  | f :: fs => f.weight + Field.total fs

theorem Field.total_append (fs gs : List Field) :
    Field.total (fs ++ gs) = Field.total fs + Field.total gs := by
  induction fs with
  | nil => simp [Field.total]
  | cons f fs ih =>
    simp only [List.cons_append, Field.total, ih]
    omega

theorem Field.weight_node (n : Node) : (node n).weight = n.weight + 1 := rfl

theorem Field.weight_nodes (ns : List Node) : (nodes ns).weight = Node.weights ns + 1 := rfl

theorem Node.fields_weight_lt (n : Node) : Field.total (n.fields.map (·.2)) < n.weight := by
  cases n with
  | bare token => simp [Node.fields, Node.weight, Field.total]
  | expr e =>
    cases e with
    | conditional token condition consequence alternative =>
      cases alternative <;>
        simp [Node.fields, Expr.fields, Field.ofExpr, Field.ofBlock, Field.weight, Field.total,
          Node.weight, Expr.weight, Stmt.weight] <;> omega
    | function token parameters body =>
      simp [Node.fields, Expr.fields, Field.ofBlock, Field.weight, Field.total, Node.weight,
        Expr.weight, Stmt.weight, Node.weights_names]
      omega
    | _ =>
      simp [Node.fields, Expr.fields, Field.ofExpr, Field.weight, Field.total, Node.weight,
        Expr.weight, Node.weights_exprs] <;> omega
  | stmt s =>
    cases s with
    | block b =>
      cases b
      simp [Node.fields, Stmt.fields, Field.weight, Field.total, Node.weight, Stmt.weight,
        Block.weight, Block.statements, Node.weights_stmts]
    | binding token name value =>
      simp [Node.fields, Stmt.fields, Field.ofExpr, Field.ofName, Field.weight, Field.total,
        Node.weight, Expr.weight, Stmt.weight]
      omega
    | _ =>
      simp [Node.fields, Stmt.fields, Field.ofExpr, Field.weight, Field.total, Node.weight,
        Stmt.weight]

end PrattFrontEnd
