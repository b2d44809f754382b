import PrattFrontEnd.Syntax.Render

/-!
The characters of a rendering, part by part. The worklist that writes a rendering is gone from here
on: a list of parts stands for the characters of its parts, one behind the other. Main statements:
`Node.characters_eq` and `Part.characters_separated`.
-/
namespace PrattFrontEnd

def Node.characters (n : Node) : List Char := n.render.toList

def Expr.characters (e : Expr) : List Char := e.render.toList

def Stmt.characters (s : Stmt) : List Char := s.render.toList

def Block.characters (b : Block) : List Char := (Stmt.block b).characters

@[simp] theorem Node.characters_expr (e : Expr) : (Node.expr e).characters = e.characters := rfl

@[simp] theorem Node.characters_stmt (s : Stmt) : (Node.stmt s).characters = s.characters := rfl

@[simp] theorem Stmt.characters_block (b : Block) : (Stmt.block b).characters = b.characters := rfl

namespace Part

theorem write_front (front written : String) (parts : List Part) :
    write (front ++ written) parts = front ++ write written parts := by
  fun_induction write written parts with
  | case1 written => rw [write]
  | case2 written t rest ih => rw [write, String.append_assoc, ih]
  | case3 written n rest ih => rw [write, ih]

theorem write_append (written : String) (parts more : List Part) :
    write written (parts ++ more) = write written parts ++ write "" more := by
  fun_induction write written parts with
  | case1 written =>
    have front := write_front written "" more
    rw [String.append_empty] at front
    exact front
  | case2 written t rest ih => rw [List.cons_append, write, ih]
  | case3 written n rest ih => rw [List.cons_append, write, ← List.append_assoc, ih]

def characters (parts : List Part) : List Char := (write "" parts).toList

@[simp] theorem characters_nil : characters [] = [] := by
  rw [characters, write]
  rfl

@[simp] theorem characters_append (parts more : List Part) :
    characters (parts ++ more) = characters parts ++ characters more := by
  simp only [characters, write_append, String.toList_append]

@[simp] theorem characters_text (t : String) (rest : List Part) :
    characters (text t :: rest) = t.toList ++ characters rest := by
  have front := write_front t "" rest
  rw [String.append_empty] at front
  rw [characters, write, String.empty_append, front, String.toList_append, characters]

@[simp] theorem characters_node (n : Node) (rest : List Part) :
    characters (node n :: rest) = n.characters ++ characters rest := by
  have alone := characters_append [node n] rest
  exact alone

theorem characters_separated (separator : String) (n : Node) (ns : List Node) :
    characters (separated separator (n :: ns)) =
      n.characters ++ ns.flatMap fun m => separator.toList ++ m.characters := by
  induction ns generalizing n with
  | nil => simp [separated]
  | cons m ns ih => simp [separated, ih]

end Part

theorem Node.characters_eq (n : Node) : n.characters = Part.characters n.parts := by
  rw [characters, render, Part.write, List.append_nil, Part.characters]

theorem Expr.characters_eq (e : Expr) : e.characters = Part.characters e.parts :=
  (Node.expr e).characters_eq

theorem Stmt.characters_eq (s : Stmt) : s.characters = Part.characters s.parts :=
  (Node.stmt s).characters_eq

def Name.furtherCharacters (names : List Name) : List Char :=
  names.flatMap fun n => ',' :: ' ' :: n.text.toList

def Name.listCharacters : List Name → List Char
  | [] => []
  | n :: names => n.text.toList ++ Name.furtherCharacters names

def Expr.furtherCharacters (es : List Expr) : List Char :=
  es.flatMap fun e => ',' :: ' ' :: e.characters

def Expr.listCharacters : List Expr → List Char
  | [] => []
  | e :: es => e.characters ++ Expr.furtherCharacters es

def Stmt.furtherCharacters (gap : Char) (ss : List Stmt) : List Char :=
  ss.flatMap fun s => gap :: s.characters

def Stmt.listCharacters (gap : Char) : List Stmt → List Char
  | [] => []
  | s :: ss => s.characters ++ Stmt.furtherCharacters gap ss

namespace Expr

theorem characters_name (n : Name) : (name n).characters = n.text.toList := by
  simp [characters_eq, parts]

theorem characters_integer (token : Token) (value : Int) :
    (integer token value).characters = token.text.toList := by
  simp [characters_eq, parts]

theorem characters_string (token : Token) (value : String) :
    (string token value).characters = '"' :: (value.toList ++ ['"']) := by
  simp [characters_eq, parts]

theorem characters_boolean (token : Token) (value : Bool) :
    (boolean token value).characters = (if value then "true" else "false").toList := by
  simp [characters_eq, parts]

theorem characters_unary (token : Token) (operator : String) (operand : Expr) :
    (unary token operator operand).characters =
      '(' :: (operator.toList ++ (operand.characters ++ [')'])) := by
  simp [characters_eq, parts, Part.ofExpr]

theorem characters_binary (token : Token) (left : Expr) (operator : String) (right : Expr) :
    (binary token left operator right).characters =
      '(' :: (left.characters ++ ' ' :: (operator.toList ++ ' ' :: (right.characters ++ [')']))) := by
  simp [characters_eq, parts, Part.ofExpr]

theorem characters_conditional (token : Token) (condition : Expr) (consequence : Block) :
    (conditional token condition consequence none).characters =
      'i' :: 'f' :: ' ' :: (condition.characters ++ ' ' :: consequence.characters) := by
  simp [characters_eq, parts, Part.ofExpr, Part.ofBlock]

theorem characters_alternative (token : Token) (condition : Expr)
    (consequence alternative : Block) :
    (conditional token condition consequence (some alternative)).characters =
      'i' :: 'f' :: ' ' :: (condition.characters ++ ' ' :: (consequence.characters ++
        ' ' :: 'e' :: 'l' :: 's' :: 'e' :: ' ' :: alternative.characters)) := by
  simp [characters_eq, parts, Part.ofExpr, Part.ofBlock]

theorem characters_separated_names (names : List Name) :
    Part.characters (Part.separated ", " (names.map fun n => .expr (.name n))) =
      Name.listCharacters names := by
  cases names with
  | nil => simp [Part.separated, Name.listCharacters]
  | cons n names =>
    simp [Part.characters_separated, Name.listCharacters, Name.furtherCharacters, characters_name,
      List.flatMap_map]

theorem characters_separated_exprs (es : List Expr) :
    Part.characters (Part.separated ", " (es.map .expr)) = Expr.listCharacters es := by
  cases es with
  | nil => simp [Part.separated, Expr.listCharacters]
  | cons e es =>
    simp [Part.characters_separated, Expr.listCharacters, Expr.furtherCharacters,
      List.flatMap_map]

theorem characters_function (token : Token) (parameters : List Name) (body : Block) :
    (function token parameters body).characters =
      token.text.toList ++ '(' :: (Name.listCharacters parameters ++
        ')' :: ' ' :: body.characters) := by
  simp [characters_eq, parts, Part.ofBlock, characters_separated_names]

theorem characters_call (token : Token) (callee : Expr) (arguments : List Expr) :
    (call token callee arguments).characters =
      callee.characters ++ '(' :: (Expr.listCharacters arguments ++ [')']) := by
  simp [characters_eq, parts, Part.ofExpr, characters_separated_exprs]

theorem characters_array (token : Token) (elements : List Expr) :
    (array token elements).characters = '[' :: (Expr.listCharacters elements ++ [']']) := by
  simp [characters_eq, parts, characters_separated_exprs]

theorem characters_index (token : Token) (collection position : Expr) :
    (index token collection position).characters =
      '(' :: (collection.characters ++ '[' :: (position.characters ++ [']', ')'])) := by
  simp [characters_eq, parts, Part.ofExpr]

end Expr

namespace Stmt

theorem characters_binding (token : Token) (name : Name) (value : Expr) :
    (binding token name value).characters =
      token.text.toList ++ ' ' :: (name.text.toList ++
        ' ' :: '=' :: ' ' :: (value.characters ++ [';'])) := by
  simp [characters_eq, parts, Part.ofExpr, Part.ofName, Expr.characters_name]

theorem characters_result (token : Token) (value : Expr) :
    (result token value).characters =
      token.text.toList ++ ' ' :: (value.characters ++ [';']) := by
  simp [characters_eq, parts, Part.ofExpr]

theorem characters_expression (token : Token) (value : Expr) :
    (expression token value).characters = value.characters := by
  simp [characters_eq, parts, Part.ofExpr]

end Stmt

theorem Block.characters_empty (token : Token) :
    (mk token []).characters = ['\x7b', ' ', '\x7d'] := by
  simp [characters, Stmt.characters_eq, Stmt.parts]

theorem Block.characters_filled (token : Token) (s : Stmt) (ss : List Stmt) :
    (mk token (s :: ss)).characters =
      '\x7b' :: ' ' :: (Stmt.listCharacters ' ' (s :: ss) ++ [' ', '\x7d']) := by
  have inside := Part.characters_separated " " (.stmt s) (ss.map .stmt)
  simp only [List.flatMap_map, Node.characters_stmt] at inside
  simp [characters, Stmt.characters_eq (.block _), Stmt.parts, inside, Stmt.listCharacters,
    Stmt.furtherCharacters]

/-!
Lists and blocks are rendered from the characters of their members and nothing else.
-/

theorem Name.listCharacters_congr {ns ms : List Name} (same : ns.map Name.text = ms.map Name.text) :
    Name.listCharacters ns = Name.listCharacters ms := by
  have further {ns ms : List Name} (same : ns.map Name.text = ms.map Name.text) :
      Name.furtherCharacters ns = Name.furtherCharacters ms := by
    have alike := congrArg (List.flatMap fun t : String => ',' :: ' ' :: t.toList) same
    simpa only [Name.furtherCharacters, List.flatMap_map] using alike
  cases ns with
  | nil => rw [List.map_eq_nil_iff.1 same.symm]
  | cons n ns =>
    cases ms with
    | nil => cases same
    | cons m ms =>
      obtain ⟨first, others⟩ := List.cons.inj same
      rw [Name.listCharacters, Name.listCharacters, first, further others]

theorem Expr.listCharacters_congr {es fs : List Expr}
    (same : es.map Expr.characters = fs.map Expr.characters) :
    Expr.listCharacters es = Expr.listCharacters fs := by
  have further {es fs : List Expr} (same : es.map Expr.characters = fs.map Expr.characters) :
      Expr.furtherCharacters es = Expr.furtherCharacters fs := by
    have alike := congrArg (List.flatMap fun cs : List Char => ',' :: ' ' :: cs) same
    simpa only [Expr.furtherCharacters, List.flatMap_map] using alike
  cases es with
  | nil => rw [List.map_eq_nil_iff.1 same.symm]
  | cons e es =>
    cases fs with
    | nil => cases same
    | cons f fs =>
      obtain ⟨first, others⟩ := List.cons.inj same
      rw [Expr.listCharacters, Expr.listCharacters, first, further others]

theorem Stmt.listCharacters_congr (gap : Char) {ss ts : List Stmt}
    (same : ss.map Stmt.characters = ts.map Stmt.characters) :
    Stmt.listCharacters gap ss = Stmt.listCharacters gap ts := by
  have further {ss ts : List Stmt} (same : ss.map Stmt.characters = ts.map Stmt.characters) :
      Stmt.furtherCharacters gap ss = Stmt.furtherCharacters gap ts := by
    have alike := congrArg (List.flatMap fun cs : List Char => gap :: cs) same
    simpa only [Stmt.furtherCharacters, List.flatMap_map] using alike
  cases ss with
  | nil => rw [List.map_eq_nil_iff.1 same.symm]
  | cons s ss =>
    cases ts with
    | nil => cases same
    | cons t ts =>
      obtain ⟨first, others⟩ := List.cons.inj same
      rw [Stmt.listCharacters, Stmt.listCharacters, first, further others]

theorem Block.characters_congr (t u : Token) {ss ts : List Stmt}
    (same : ss.map Stmt.characters = ts.map Stmt.characters) :
    (Block.mk t ss).characters = (Block.mk u ts).characters := by
  cases ss with
  | nil => rw [List.map_eq_nil_iff.1 same.symm, Block.characters_empty, Block.characters_empty]
  | cons s ss =>
    cases ts with
    | nil => cases same
    | cons r ts =>
      rw [Block.characters_filled, Block.characters_filled, Stmt.listCharacters_congr ' ' same]

theorem Program.characters_eq (p : Program) :
    p.render.toList = Stmt.listCharacters '\n' p.statements := by
  obtain ⟨ss⟩ := p
  cases ss with
  | nil => rfl
  | cons s ss =>
    induction ss generalizing s with
    | nil => simp [Program.render, Stmt.listCharacters, Stmt.furtherCharacters, Stmt.characters]
    | cons t ss ih =>
      have rest := ih t
      simp only [Program.render, List.map_cons, String.intercalate_cons_cons,
        String.toList_append] at rest ⊢
      rw [rest]
      simp [Stmt.listCharacters, Stmt.furtherCharacters, Stmt.characters]

end PrattFrontEnd
