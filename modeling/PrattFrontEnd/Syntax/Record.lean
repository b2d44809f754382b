import PrattFrontEnd.Syntax.Node
import PrattFrontEnd.Text.Quoted

/-!
Records: a tree as plain data, without tokens. Every node becomes the record of its kind and its
fields. Main statement: `Expr.record_eq` and its companions, the fields of the record are the fields
of the node.
-/
namespace PrattFrontEnd

/-- Plain data. A record has a kind and named fields in order. -/
inductive Record where
  | text (value : String)
  | number (value : Int)
  | truth (value : Bool)
  | absent
  | list (items : List Record)
  | record (kind : String) (fields : List (String × Record))

def Name.record (n : Name) : Record := .record "Identifier" [("value", .text n.text)]

mutual

def Expr.record : Expr → Record
  | .bare _ => .record "Expression" []
  | .name n => n.record
  | .integer _ value => .record "IntegerLiteral" [("value", .number value)]
  | .string _ value => .record "StringLiteral" [("value", .text value)]
  | .boolean _ value => .record "Boolean" [("value", .truth value)]
  | .unary _ operator operand =>
    .record "PrefixExpression" [("operator", .text operator), ("right", operand.record)]
  | .binary _ left operator right =>
    .record "InfixExpression"
      [("left", left.record), ("operator", .text operator), ("right", right.record)]
  | .conditional _ condition consequence none =>
    .record "IfExpression"
      [("condition", condition.record), ("consequence", consequence.record),
        ("alternative", .absent)]
  | .conditional _ condition consequence (some alternative) =>
    .record "IfExpression"
      [("condition", condition.record), ("consequence", consequence.record),
        ("alternative", alternative.record)]
  | .function _ parameters body =>
    .record "FunctionLiteral"
      [("parameters", .list (parameters.map Name.record)), ("body", body.record)]
  | .call _ callee arguments =>
    .record "CallExpression"
      [("function", callee.record), ("arguments", .list (Expr.records arguments))]
  | .array _ elements => .record "ArrayLiteral" [("elements", .list (Expr.records elements))]
  | .index _ collection position =>
    .record "IndexExpression" [("left", collection.record), ("index", position.record)]
termination_by structural e => e

def Stmt.record : Stmt → Record
  | .bare _ => .record "Statement" []
  | .binding _ name value =>
    .record "LetStatement" [("name", name.record), ("value", value.record)]
  | .result _ value => .record "ReturnStatement" [("return_value", value.record)]
  | .expression _ value => .record "ExpressionStatement" [("expression", value.record)]
  | .block b => b.record
termination_by structural s => s

def Block.record : Block → Record
  | .mk _ statements => .record "BlockStatement" [("statements", .list (Stmt.records statements))]
termination_by structural b => b

def Expr.records : List Expr → List Record
  | [] => []
  | e :: es => e.record :: Expr.records es
termination_by structural es => es

def Stmt.records : List Stmt → List Record
  | [] => []
  | s :: ss => s.record :: Stmt.records ss
termination_by structural ss => ss

end

theorem Expr.records_eq_map (es : List Expr) : Expr.records es = es.map Expr.record := by
  induction es with
  | nil => rfl
  | cons e es ih => simp [Expr.records, ih]

theorem Stmt.records_eq_map (ss : List Stmt) : Stmt.records ss = ss.map Stmt.record := by
  induction ss with
  | nil => rfl
  | cons s ss ih => simp [Stmt.records, ih]

def Node.record : Node → Record
  | bare _ => .record "Node" []
  | expr e => e.record
  | stmt s => s.record

def Field.record : Field → Record
  | text value => .text value
  | number value => .number value
  | truth value => .truth value
  | absent => .absent
  | node child => child.record
  | nodes children => .list (children.map Node.record)

def Program.record (p : Program) : Record :=
  .record "Program" [("statements", .list (p.statements.map Stmt.record))]

theorem Expr.record_eq (e : Expr) :
    e.record = .record e.kindName (e.fields.map fun f => (f.1, f.2.record)) := by
  cases e with
  | conditional token condition consequence alternative =>
    cases alternative <;>
      simp [Expr.record, Expr.kindName, Expr.fields, Field.ofExpr, Field.ofBlock, Field.record,
        Node.record, Stmt.record]
  | _ =>
    simp [Expr.record, Expr.kindName, Expr.fields, Field.ofExpr, Field.ofBlock, Field.record,
      Node.record, Stmt.record, Name.record, Expr.records_eq_map, Function.comp_def]

theorem Stmt.record_eq (s : Stmt) :
    s.record = .record s.kindName (s.fields.map fun f => (f.1, f.2.record)) := by
  cases s with
  | block b =>
    cases b
    simp [Stmt.record, Block.record, Stmt.kindName, Stmt.fields, Block.statements, Field.record,
      Node.record, Stmt.records_eq_map, Function.comp_def]
  | _ =>
    simp [Stmt.record, Stmt.kindName, Stmt.fields, Field.ofExpr, Field.ofName, Field.record,
      Node.record, Expr.record]

theorem Node.record_eq (n : Node) :
    n.record = .record n.kindName (n.fields.map fun f => (f.1, f.2.record)) := by
  cases n with
  | bare token => rfl
  | expr e => exact e.record_eq
  | stmt s => exact s.record_eq

mutual

def Record.spelled : Record → String
  | .text value => Text.quoted value
  | .number value => toString value
  | .truth value => if value then "True" else "False"
  | .absent => "None"
  | .list items => "[" ++ ", ".intercalate (Record.spelledItems items) ++ "]"
  | .record kind fields => kind ++ "(" ++ ", ".intercalate (Record.spelledFields fields) ++ ")"
termination_by structural r => r

def Record.spelledItems : List Record → List String
  | [] => []
  | r :: rs => r.spelled :: Record.spelledItems rs
termination_by structural rs => rs

def Record.spelledFields : List (String × Record) → List String
  | [] => []
  | (name, r) :: fields => (name ++ "=" ++ r.spelled) :: Record.spelledFields fields
termination_by structural fields => fields

end

end PrattFrontEnd
