import PrattFrontEnd.Proofs.Parser.Building
import PrattFrontEnd.Proofs.Scanning.Tiling
import PrattFrontEnd.Proofs.Text.Numeral

/-!
Well-formed trees. Every node of a program that was parsed from a source text, malformed or not, is made
at a token that was read from a text, and what such a token looks like is what the node shows. Main
statement: `parsed_nodes_are_wellformed`.
-/
namespace PrattFrontEnd

namespace Lexeme

/-- A name that is not a keyword. It has a first character, so it is not empty. -/
structure Identifier (text : String) : Prop where
  front : ∃ c ∈ text.toList.head?, startsWord c = true
  all : ∀ c ∈ text.toList, continuesWord c = true
  free : text ∉ keywords

theorem read_layout {c : Char} (layout : Layout.isBlank c = true ∨ c = '#') (cs : List Char) :
    (read c cs).1.kind = .illegal := by
  simp only [Layout.isBlank, Bool.or_eq_true, decide_eq_true_eq] at layout
  rcases layout with (((rfl | rfl) | rfl) | rfl) | rfl <;> cases cs <;> rfl

end Lexeme

open Lexeme

namespace Token.Read

variable {t : Token}

theorem fits (read : t.Read) (legal : t.kind ≠ .illegal) (more : t.kind ≠ .eof) :
    ∃ rest, t.lexeme.Fits [] rest := by
  rcases read with ended | ⟨c, cs, same⟩
  · exact absurd ended more
  · have apart : ¬ (Layout.isBlank c = true ∨ c = '#') := by
      intro layout
      have kind := read_layout layout cs
      rw [same] at kind
      exact legal kind
    rw [not_or, Bool.not_eq_true] at apart
    have front : Apart [] (c :: cs) := by
      intro d last
      cases last
    refine ⟨(Lexeme.read c cs).2, ?_⟩
    rw [← same]
    exact fits_of_read apart.1 apart.2 front

theorem identifier (read : t.Read) (kind : t.kind = .identifier) : Identifier t.text := by
  obtain ⟨k, text, place⟩ := t
  cases kind
  obtain ⟨rest, word, _⟩ := read.fits (by simp) (by simp)
  have free : text ∉ keywords := by
    intro member
    have other := word.keyword.2 (by simpa [Token.lexeme] using member)
    exact other rfl
  exact ⟨word.front, word.all, free⟩

theorem inside (read : t.Read) (kind : t.kind = .string) :
    bareQuote t.text.toList = false ∧ bareBackslash t.text.toList = false := by
  obtain ⟨k, text, place⟩ := t
  cases kind
  obtain ⟨rest, inside⟩ := read.fits (by simp) (by simp)
  exact inside

theorem truth (read : t.Read) (kinds : t.kind ∈ Opening.boolean.kinds) :
    t.kind = .trueWord ↔ t.text = "true" := by
  simp only [Opening.kinds, List.mem_cons, List.not_mem_nil, or_false] at kinds
  rcases kinds with kind | kind
  · have text : t.text = "true" := read.keyword (by decide) kind
    exact ⟨fun _ => text, fun _ => kind⟩
  · have text : t.text = "false" := read.keyword (by decide) kind
    rw [kind, text]
    decide

end Token.Read

def Expr.Wellformed : Expr → Prop
  | .bare _ => False
  | .name n => n.text = n.token.text ∧ Identifier n.text
  | .integer token value =>
    (token.text.toList ≠ [] ∧ token.text.toList.all Char.isDigit) ∧
      value = Text.digitsValue token.text.toList ∧ 0 ≤ value ∧ value ≤ 2 ^ 63 - 1
  | .string _ value => bareQuote value.toList = false ∧ bareBackslash value.toList = false
  | .boolean token value => value = true ↔ token.text = "true"
  | .unary token operator _ => operator = token.text ∧ operator ∈ ["!", "-"]
  | .binary token _ operator _ =>
    operator = token.text ∧ operator ∈ ["+", "-", "*", "/", "==", "!=", "<", ">"]
  | .function token _ _ => token.text = "fn"
  | .conditional _ _ _ _ | .call _ _ _ | .array _ _ | .index _ _ _ => True

def Stmt.Wellformed : Stmt → Prop
  | .bare _ => False
  | .binding token _ _ => token.text = "let"
  | .result token _ => token.text = "return"
  | .expression _ _ | .block _ => True

/-- No node is bare, and each one shows what its token does. -/
def Node.Wellformed : Node → Prop
  | bare _ => False
  | expr e => e.Wellformed
  | stmt s => s.Wellformed

theorem Kind.name_mem_of_operatorLevel? {k : Kind} (known : k.operatorLevel?.isSome) :
    k.name ∈ ["+", "-", "*", "/", "==", "!=", "<", ">"] := by
  cases k <;> first | decide | cases known

theorem Expr.wellformed_of_made (e : Expr) (read : e.token.Read) (made : e.Made) :
    e.Wellformed := by
  cases e with
  | bare token => exact made
  | name n =>
    obtain ⟨kind, text⟩ := made
    refine ⟨text, ?_⟩
    rw [text]
    exact read.identifier kind
  | integer token value =>
    obtain ⟨_, n, shown, rfl⟩ := made
    obtain ⟨digits, bound, rfl⟩ := Expression.integerValue?_eq_some_iff.1 shown
    refine ⟨digits, rfl, Int.natCast_nonneg _, ?_⟩
    omega
  | string token value =>
    obtain ⟨kind, rfl⟩ := made
    exact read.inside kind
  | boolean token value =>
    obtain ⟨kinds, rfl⟩ := made
    exact decide_eq_true_iff.trans (read.truth kinds)
  | unary token operator operand =>
    obtain ⟨kinds, rfl⟩ := made
    refine ⟨rfl, ?_⟩
    rw [show token.text = token.kind.name from read.unary kinds]
    simp only [Opening.kinds, List.mem_cons, List.not_mem_nil, or_false] at kinds
    rcases kinds with kind | kind <;> rw [kind] <;> decide
  | binary token left operator right =>
    obtain ⟨known, rfl⟩ := made
    refine ⟨rfl, ?_⟩
    have named : token.text = token.kind.name :=
      read.operator (Kind.mem_operators_of_operatorLevel? known)
    rw [named]
    exact Kind.name_mem_of_operatorLevel? known
  | function token parameters body => exact read.keyword (by decide) made
  | conditional token condition consequence alternative => trivial
  | call token callee arguments => trivial
  | array token elements => trivial
  | index token collection position => trivial

theorem Stmt.wellformed_of_made (s : Stmt) (read : s.token.Read) (made : s.Made) :
    s.Wellformed := by
  cases s with
  | bare token => exact made
  | binding token name value => exact read.keyword (by decide) made
  | result token value => exact read.keyword (by decide) made
  | expression token value => trivial
  | block b => trivial

theorem Node.Made.wellformed {n : Node} (made : n.Made) : n.Wellformed := by
  obtain ⟨read, made⟩ := made
  cases n with
  | bare token => exact made
  | expr e => exact e.wellformed_of_made read made
  | stmt s => exact s.wellformed_of_made read made

def Program.Has (p : Program) (n : Node) : Prop := ∃ s ∈ p.statements, n.Occurs (.stmt s)

/-- Whatever a source text is parsed into, with diagnostics or without, every node of it is well
formed. -/
theorem parsed_nodes_are_wellformed (source : String) (maxDepth : Int) (n : Node)
    (member : (parse source maxDepth).program.Has n) : n.Wellformed := by
  obtain ⟨s, listed, occurs⟩ := member
  have genuine := (genuine_of_parse source maxDepth s listed).1
  exact (genuine n occurs).wellformed

/-- A name behind a statement that was dropped. -/
theorem recovered_name_is_wellformed :
    ∃ n, (parse "let 5; let x = 7" 100).program.Has n ∧ n.kindName = "Identifier" ∧
      n.token.text = "x" ∧ n.Wellformed := by
  have found : (((parse "let 5; let x = 7" 100).program.statements.flatMap
      fun s => (Node.stmt s).children).find?
        fun n => n.kindName = "Identifier" && n.token.text = "x").isSome := by
    decide +kernel
  obtain ⟨n, found⟩ := Option.isSome_iff_exists.1 found
  obtain ⟨s, listed, child⟩ := List.mem_flatMap.1 (List.mem_of_find?_eq_some found)
  have shown := List.find?_some found
  simp only [Bool.and_eq_true, decide_eq_true_eq] at shown
  have member : (parse "let 5; let x = 7" 100).program.Has n := ⟨s, listed, .inside child .here⟩
  exact ⟨n, member, shown.1, shown.2, parsed_nodes_are_wellformed _ 100 n member⟩

end PrattFrontEnd
