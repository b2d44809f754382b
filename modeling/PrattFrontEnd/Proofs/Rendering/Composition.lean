import PrattFrontEnd.Proofs.Rendering.Characters

/-!
The rendering of a node is put together from the renderings of its children. The worklist of parts
writes what a recursion over the tree writes. Main statement: `rendering_composes`.
-/
namespace PrattFrontEnd

mutual

def Expr.canonical : Expr → String
  | .bare token => token.text
  | .name n => n.text
  | .integer token _ => token.text
  | .string _ value => "\"" ++ value ++ "\""
  | .boolean _ value => if value then "true" else "false"
  | .unary _ operator operand => "(" ++ operator ++ operand.canonical ++ ")"
  | .binary _ left operator right =>
    "(" ++ left.canonical ++ " " ++ operator ++ " " ++ right.canonical ++ ")"
  | .conditional _ condition consequence none =>
    "if " ++ condition.canonical ++ " " ++ consequence.canonical
  | .conditional _ condition consequence (some alternative) =>
    "if " ++ condition.canonical ++ " " ++ consequence.canonical ++ " else " ++
      alternative.canonical
  | .function token parameters body =>
    token.text ++ "(" ++ ", ".intercalate (parameters.map Name.text) ++ ") " ++ body.canonical
  | .call _ callee arguments =>
    callee.canonical ++ "(" ++ ", ".intercalate (Expr.canonicals arguments) ++ ")"
  | .array _ elements => "[" ++ ", ".intercalate (Expr.canonicals elements) ++ "]"
  | .index _ collection position =>
    "(" ++ collection.canonical ++ "[" ++ position.canonical ++ "])"
termination_by structural e => e

def Stmt.canonical : Stmt → String
  | .bare token => token.text
  | .binding token name value =>
    token.text ++ " " ++ name.text ++ " = " ++ value.canonical ++ ";"
  | .result token value => token.text ++ " " ++ value.canonical ++ ";"
  | .expression _ value => value.canonical
  | .block b => b.canonical
termination_by structural s => s

def Block.canonical : Block → String
  | .mk _ [] => "\x7b \x7d"
  | .mk _ (s :: ss) => "\x7b " ++ " ".intercalate (s.canonical :: Stmt.canonicals ss) ++ " \x7d"
termination_by structural b => b

def Expr.canonicals : List Expr → List String
  | [] => []
  | e :: es => e.canonical :: Expr.canonicals es
termination_by structural es => es

def Stmt.canonicals : List Stmt → List String
  | [] => []
  | s :: ss => s.canonical :: Stmt.canonicals ss
termination_by structural ss => ss

end

def Node.canonical : Node → String
  | .bare token => token.text
  | .expr e => e.canonical
  | .stmt s => s.canonical

namespace Part

def rendered : Part → String
  | text t => t
  | node n => n.render

def canonical : Part → String
  | text t => t
  | node n => n.canonical

/-- The node of a part that is no text. -/
def child? : Part → Option Node
  | text _ => none
  | node n => some n

theorem write_eq (written : String) (parts : List Part) :
    write written parts = written ++ String.join (parts.map rendered) := by
  induction parts generalizing written with
  | nil => rw [write, List.map_nil, String.join_nil, String.append_empty]
  | cons part rest ih =>
    cases part with
    | text t => rw [write, ih, List.map_cons, String.join_cons, String.append_assoc, rendered]
    | node n =>
      have first : write written [node n] = written ++ n.render := by
        have front := write_front written "" [node n]
        rwa [String.append_empty] at front
      have split := write_append written [node n] rest
      have others := ih ""
      rw [String.empty_append] at others
      rw [List.singleton_append] at split
      rw [split, first, others, List.map_cons, String.join_cons, String.append_assoc, rendered]

theorem join_separated (separator : String) (ns : List Node) :
    String.join ((separated separator ns).map rendered) =
      separator.intercalate (ns.map Node.render) := by
  fun_induction separated separator ns with
  | case1 => rfl
  | case2 n => simp [rendered]
  | case3 n m rest ih =>
    rw [List.map_cons, List.map_cons, String.join_cons, String.join_cons, ih]
    simp [rendered, String.append_assoc]

end Part

theorem Node.render_eq (n : Node) : n.render = String.join (n.parts.map Part.rendered) := by
  rw [Node.render, Part.write, List.append_nil, Part.write_eq, String.empty_append]

theorem Expr.render_eq (e : Expr) : e.render = String.join (e.parts.map Part.rendered) :=
  (Node.expr e).render_eq

theorem Stmt.render_eq (s : Stmt) : s.render = String.join (s.parts.map Part.rendered) :=
  (Node.stmt s).render_eq

@[simp] theorem Part.rendered_text (t : String) : (text t).rendered = t := rfl

@[simp] theorem Part.rendered_ofExpr (e : Expr) : (ofExpr e).rendered = e.render := rfl

@[simp] theorem Part.rendered_ofBlock (b : Block) : (ofBlock b).rendered = (Stmt.block b).render := rfl

@[simp] theorem Part.rendered_ofName (n : Name) : (ofName n).rendered = n.text := by
  change (Expr.name n).render = n.text
  simp [Expr.render_eq, Expr.parts]

theorem Expr.join_separated (es : List Expr) :
    String.join ((Part.separated ", " (es.map .expr)).map Part.rendered) =
      ", ".intercalate (es.map Expr.render) := by
  rw [Part.join_separated, List.map_map]
  rfl

theorem Name.join_separated (ns : List Name) :
    String.join ((Part.separated ", " (ns.map fun n => .expr (.name n))).map Part.rendered) =
      ", ".intercalate (ns.map Name.text) := by
  rw [Part.join_separated, List.map_map]
  congr 2
  funext n
  exact Part.rendered_ofName n

theorem Stmt.join_separated (ss : List Stmt) :
    String.join ((Part.separated " " (ss.map .stmt)).map Part.rendered) =
      " ".intercalate (ss.map Stmt.render) := by
  rw [Part.join_separated, List.map_map]
  rfl

mutual

theorem Expr.render_canonical : (e : Expr) → e.render = e.canonical
  | .bare _ | .name _ | .integer _ _ | .string _ _ | .boolean _ _ => by
    simp [Expr.render_eq, Expr.parts, Expr.canonical]
  | .unary _ operator operand => by
    simp [Expr.render_eq (.unary _ operator operand), Expr.parts, Expr.canonical,
      operand.render_canonical, String.append_assoc]
  | .binary _ left operator right => by
    simp [Expr.render_eq (.binary _ left operator right), Expr.parts, Expr.canonical,
      left.render_canonical, right.render_canonical, String.append_assoc]
  | .conditional _ condition consequence none => by
    simp [Expr.render_eq (.conditional _ condition consequence none), Expr.parts, Expr.canonical,
      condition.render_canonical, consequence.render_canonical, String.append_assoc]
  | .conditional _ condition consequence (some alternative) => by
    simp [Expr.render_eq (.conditional _ condition consequence (some alternative)), Expr.parts,
      Expr.canonical, condition.render_canonical, consequence.render_canonical,
      alternative.render_canonical, String.append_assoc]
  | .function token parameters body => by
    simp [Expr.render_eq (.function token parameters body), Expr.parts, Expr.canonical,
      Name.join_separated, body.render_canonical, String.append_assoc]
  | .call _ callee arguments => by
    simp [Expr.render_eq (.call _ callee arguments), Expr.parts, Expr.canonical,
      Expr.join_separated, callee.render_canonical, Expr.render_canonicals arguments,
      String.append_assoc]
  | .array _ elements => by
    simp [Expr.render_eq (.array _ elements), Expr.parts, Expr.canonical, Expr.join_separated,
      Expr.render_canonicals elements, String.append_assoc]
  | .index _ collection position => by
    simp [Expr.render_eq (.index _ collection position), Expr.parts, Expr.canonical,
      collection.render_canonical, position.render_canonical, String.append_assoc]
termination_by structural e => e

theorem Stmt.render_canonical : (s : Stmt) → s.render = s.canonical
  | .bare _ => by simp [Stmt.render_eq, Stmt.parts, Stmt.canonical]
  | .binding token name value => by
    simp [Stmt.render_eq (.binding token name value), Stmt.parts, Stmt.canonical,
      value.render_canonical, String.append_assoc]
  | .result token value => by
    simp [Stmt.render_eq (.result token value), Stmt.parts, Stmt.canonical,
      value.render_canonical, String.append_assoc]
  | .expression token value => by
    simp [Stmt.render_eq (.expression token value), Stmt.parts, Stmt.canonical,
      value.render_canonical]
  | .block b => by
    rw [Stmt.canonical, b.render_canonical]
termination_by structural s => s

theorem Block.render_canonical : (b : Block) → (Stmt.block b).render = b.canonical
  | .mk token [] => by
    simp [Stmt.render_eq, Stmt.parts, Block.canonical]
  | .mk token (s :: ss) => by
    have items := Stmt.join_separated (s :: ss)
    rw [List.map_cons (f := Stmt.render), s.render_canonical, Stmt.render_canonicals ss] at items
    simpa [Stmt.render_eq, Stmt.parts, Block.canonical, String.append_assoc] using items
termination_by structural b => b

theorem Expr.render_canonicals : (es : List Expr) → es.map Expr.render = Expr.canonicals es
  | [] => rfl
  | e :: es => by
    rw [List.map_cons, Expr.canonicals, e.render_canonical, Expr.render_canonicals es]
termination_by structural es => es

theorem Stmt.render_canonicals : (ss : List Stmt) → ss.map Stmt.render = Stmt.canonicals ss
  | [] => rfl
  | s :: ss => by
    rw [List.map_cons, Stmt.canonicals, s.render_canonical, Stmt.render_canonicals ss]
termination_by structural ss => ss

end

theorem Node.render_canonical : (n : Node) → n.render = n.canonical
  | .bare _ => by simp [Node.render_eq, Node.parts, Node.canonical]
  | .expr e => e.render_canonical
  | .stmt s => s.render_canonical

theorem Part.rendered_canonical (part : Part) : part.rendered = part.canonical := by
  cases part with
  | text t => rfl
  | node n => exact n.render_canonical

def Field.children : Field → List Node
  | node child => [child]
  | nodes children => children
  | _ => []

def Node.children (n : Node) : List Node := n.fields.flatMap fun f => f.2.children

@[simp] theorem Part.children_text (t : String) (rest : List Part) :
    (text t :: rest).filterMap child? = rest.filterMap child? := rfl

@[simp] theorem Part.children_node (n : Node) (rest : List Part) :
    (node n :: rest).filterMap child? = n :: rest.filterMap child? := rfl

theorem Part.children_separated (separator : String) (ns : List Node) :
    (separated separator ns).filterMap child? = ns := by
  fun_induction separated separator ns with
  | case1 => rfl
  | case2 n => rfl
  | case3 n m rest ih => simp [ih]

theorem Node.children_of_parts (n : Node) : n.parts.filterMap Part.child? = n.children := by
  cases n with
  | bare token => rfl
  | expr e =>
    cases e with
    | conditional token condition consequence alternative => cases alternative <;> rfl
    | function token parameters body =>
      simp [Node.parts, Expr.parts, Part.ofBlock, Part.children_separated,
        Node.children, Node.fields, Expr.fields, Field.children, Field.ofBlock]
    | call token callee arguments =>
      simp [Node.parts, Expr.parts, Part.ofExpr, Part.children_separated,
        Node.children, Node.fields, Expr.fields, Field.children, Field.ofExpr]
    | array token elements =>
      simp [Node.parts, Expr.parts, Part.children_separated, Node.children,
        Node.fields, Expr.fields, Field.children]
    | _ => rfl
  | stmt s =>
    cases s with
    | block b =>
      obtain ⟨token, statements⟩ := b
      cases statements with
      | nil => rfl
      | cons s ss =>
        have items := Part.children_separated " " ((s :: ss).map .stmt)
        simpa [Node.parts, Stmt.parts, Node.children, Node.fields, Stmt.fields,
          Block.statements, Field.children] using items
    | _ => rfl

/-- The worklist writes the canonical text of every node: its parts from left to right, and in the
place of each child the canonical text of that child. The children among the parts are all the
children, each once and in order. A binary expression is an instance. -/
theorem rendering_composes :
    (∀ n : Node,
      n.render = n.canonical ∧
        n.render = String.join (n.parts.map Part.canonical) ∧
        n.parts.filterMap Part.child? = n.children) ∧
      ∀ (token : Token) (left : Expr) (operator : String) (right : Expr),
        (Expr.binary token left operator right).render =
          "(" ++ left.render ++ " " ++ operator ++ " " ++ right.render ++ ")" := by
  constructor
  · intro n
    refine ⟨n.render_canonical, ?_, n.children_of_parts⟩
    rw [n.render_eq, List.map_congr_left fun part _ => part.rendered_canonical]
  · intro token left operator right
    rw [Expr.render_canonical, Expr.canonical, left.render_canonical, right.render_canonical]

end PrattFrontEnd
