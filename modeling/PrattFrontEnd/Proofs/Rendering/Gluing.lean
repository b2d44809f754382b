import PrattFrontEnd.Proofs.Rendering.Joints
import PrattFrontEnd.Proofs.Rendering.Lexemes
import PrattFrontEnd.Proofs.Rendering.Safety
import PrattFrontEnd.Proofs.Syntax.Sameness

/-!
The joints of a rendering. There is one for each call and each index, as in what can be derived, and
one more wherever a statement is glued to the one before it. Main statement:
`Program.unglued_of_derivesFrom`.
-/
namespace PrattFrontEnd

open Lexeme

def Lexeme.kinds (ls : List Lexeme) : List Kind := ls.map Lexeme.kind

@[simp] theorem Lexeme.kinds_nil : kinds [] = [] := rfl

@[simp] theorem Lexeme.kinds_cons (l : Lexeme) (ls : List Lexeme) :
    kinds (l :: ls) = l.kind :: kinds ls := rfl

@[simp] theorem Lexeme.kinds_append (ls more : List Lexeme) :
    kinds (ls ++ more) = kinds ls ++ kinds more := List.map_append

theorem kinds_lexemes (ts : List Token) : Lexeme.kinds (ts.map Token.lexeme) = kinds ts := by
  rw [Lexeme.kinds, List.map_map]
  rfl

/-- A list of kinds has so many joints, and it has more of them if the test is not passed. The flags
say whether it stands behind the end of an expression and ends with one. -/
def Counts (ks : List Kind) (behind ahead : Bool) (n : Nat) (passed : Bool) : Prop :=
  ∃ more, (more = 0 → passed = true) ∧
    ∀ rest, joints behind (ks ++ rest) = n + more + joints ahead rest

namespace Counts

variable {ks ls : List Kind} {k : Kind} {behind between ahead passed passedToo : Bool} {m n : Nat}

theorem nil (behind : Bool) : Counts [] behind behind 0 true :=
  ⟨0, fun _ => rfl, fun rest => by simp⟩

theorem append (first : Counts ks behind between m passed)
    (second : Counts ls between ahead n passedToo) :
    Counts (ks ++ ls) behind ahead (m + n) (passed && passedToo) := by
  obtain ⟨more, none, counted⟩ := first
  obtain ⟨others, noneToo, countedToo⟩ := second
  refine ⟨more + others, ?_, ?_⟩
  · intro zero
    rw [none (by omega), noneToo (by omega)]
    rfl
  · intro rest
    rw [List.append_assoc, counted, countedToo]
    omega

theorem plain (kind : k.applies = false ∧ k.concludes = false)
    (further : Counts ks false ahead n passed) (behind : Bool) :
    Counts (k :: ks) behind ahead n passed := by
  obtain ⟨more, none, counted⟩ := further
  refine ⟨more, none, ?_⟩
  intro rest
  rw [List.cons_append, joints_plain kind, counted]

theorem concluding (kind : k.applies = false ∧ k.concludes = true)
    (further : Counts ks true ahead n passed) (behind : Bool) :
    Counts (k :: ks) behind ahead n passed := by
  obtain ⟨more, none, counted⟩ := further
  refine ⟨more, none, ?_⟩
  intro rest
  rw [List.cons_append, joints_concluding kind, counted]

theorem opening (kind : k.concludes = false) (further : Counts ks false ahead n passed) :
    Counts (k :: ks) false ahead n passed := by
  obtain ⟨more, none, counted⟩ := further
  refine ⟨more, none, ?_⟩
  intro rest
  rw [List.cons_append, joints_cons, kind, counted]
  simp

theorem joint (kind : k.applies = true ∧ k.concludes = false)
    (further : Counts ks false ahead n passed) : Counts (k :: ks) true ahead (1 + n) passed := by
  obtain ⟨more, none, counted⟩ := further
  refine ⟨more, none, ?_⟩
  intro rest
  rw [List.cons_append, joints_cons, kind.1, kind.2, counted]
  simp only [Bool.and_true, Bool.toNat_true]
  omega

theorem followed (first : Counts ks behind between n passed)
    (last : Counts ls between ahead 0 true) : Counts (ks ++ ls) behind ahead n passed := by
  have whole := first.append last
  rw [Bool.and_true] at whole
  exact whole

theorem closing (kind : k.applies = false ∧ k.concludes = true) (behind : Bool) :
    Counts [k] behind true 0 true :=
  (nil true).concluding kind behind

end Counts

theorem Lexeme.applies_of_covered {l : Lexeme} (legible : l.Legible) {more : List Char}
    (front : (l.covered ++ more).head? = some '(' ∨ (l.covered ++ more).head? = some '[') :
    l.kind.applies = true := by
  have alone : l.EndsBefore [] := by
    intro c none
    cases none
  obtain ⟨c, cs, split, next⟩ := read_back legible alone
  rw [List.append_nil] at split
  rw [split] at front
  have kind : (read c cs).1.kind = l.kind := by rw [next]
  rw [← kind]
  rcases front with same | same
  · cases same
    cases cs <;> rfl
  · cases same
    cases cs <;> rfl

theorem Stmt.front_of_glues {s t : Stmt} (legible : t.Legible) :
    ∃ l ls, t.lexemes = l :: ls ∧ (s.glues t = true → l.kind.applies = true) := by
  cases t with
  | bare token => simp at legible
  | block b => simp at legible
  | binding token name value =>
    refine ⟨_, _, rfl, ?_⟩
    intro glues
    simp [Stmt.glues, isExpression] at glues
  | result token value =>
    refine ⟨_, _, rfl, ?_⟩
    intro glues
    simp [Stmt.glues, isExpression] at glues
  | expression token value =>
    rw [Stmt.Legible] at legible
    obtain ⟨l, ls, more, front, shown, legibleToo, _⟩ := value.begins legible
    refine ⟨l, ls, front, ?_⟩
    intro glues
    simp only [Stmt.glues, Bool.and_eq_true, Bool.or_eq_true, decide_eq_true_eq] at glues
    have head := glues.2
    rw [← Stmt.characters, Stmt.characters_expression, shown] at head
    exact applies_of_covered legibleToo head

theorem Counts.behind_statement (s : Stmt) {ss : List Stmt} (legible : Stmt.AllLegible ss)
    {ahead passed : Bool} {n : Nat}
    (counts : Counts (Lexeme.kinds (Stmt.allLexemes ss)) false ahead n passed) :
    ∃ ahead, Counts (Lexeme.kinds (Stmt.allLexemes ss)) s.isExpression ahead n
      ((ss.head?.all fun t => !s.glues t) && passed) := by
  obtain ⟨more, none, counted⟩ := counts
  cases ss with
  | nil =>
    have empty := counted []
    simp only [Stmt.allLexemes, Lexeme.kinds_nil, List.append_nil, joints_nil] at empty
    refine ⟨s.isExpression, 0, ?_, ?_⟩
    · intro _
      exact none (by omega)
    · intro rest
      rw [Stmt.allLexemes, Lexeme.kinds_nil, List.nil_append]
      omega
  | cons t ss =>
    rw [Stmt.AllLegible] at legible
    obtain ⟨l, ls, front, opens⟩ := Stmt.front_of_glues (s := s) legible.1
    refine ⟨ahead, (s.isExpression && l.kind.applies).toNat + more, ?_, ?_⟩
    · intro zero
      rw [none (by omega), Bool.and_true, List.head?_cons, Option.all_some, Bool.not_eq_true']
      cases glued : s.glues t with
      | false => rfl
      | true =>
        have first : s.isExpression = true := by
          simp only [Stmt.glues, Bool.and_eq_true] at glued
          exact glued.1.1
        rw [first, opens glued] at zero
        simp at zero
    · intro rest
      have behind := counted rest
      simp only [Stmt.allLexemes, front, List.cons_append, Lexeme.kinds_cons, joints_cons,
        Bool.false_and, Bool.toNat_false] at behind ⊢
      omega

theorem Name.counts_further (names : List Name) :
    Counts (Lexeme.kinds (Name.furtherLexemes names)) true true 0 true := by
  induction names with
  | nil => exact .nil true
  | cons n names ih =>
    have named := Counts.concluding (k := .identifier) (by decide) ih false
    exact named.plain (k := .comma) (by decide) true

theorem Name.counts_list (names : List Name) :
    ∃ ahead, Counts (Lexeme.kinds (Name.listLexemes names)) false ahead 0 true := by
  cases names with
  | nil => exact ⟨false, .nil false⟩
  | cons n names =>
    exact ⟨true, (Name.counts_further names).concluding (k := .identifier) (by decide) false⟩

mutual

theorem Expr.counts : (e : Expr) → e.Legible →
    Counts (Lexeme.kinds e.lexemes) false true e.applications
      (e.every (fun _ => true) Stmt.unglued)
  | .bare _, legible => by simp at legible
  | .name _, _ => .closing (k := .identifier) (by decide) false
  | .integer _ _, _ => .closing (k := .integer) (by decide) false
  | .string _ _, _ => .closing (k := .string) (by decide) false
  | .boolean _ true, _ => .closing (k := .trueWord) (by decide) false
  | .boolean _ false, _ => .closing (k := .falseWord) (by decide) false
  | .unary token operator operand, legible => by
    rw [Expr.Legible] at legible
    have plain : token.kind.applies = false ∧ token.kind.concludes = false := by
      rcases legible.1 with kind | kind <;> rw [kind] <;> decide
    have inside := (operand.counts legible.2.2).followed
      (.closing (k := .rightParen) (by decide) true)
    rw [Expr.lexemes, Lexeme.kinds_cons, Lexeme.kinds_cons, Lexeme.kinds_append,
      Expr.applications_unary, Expr.every]
    exact (inside.plain plain false).opening (by decide)
  | .binary token left operator right, legible => by
    rw [Expr.Legible] at legible
    obtain ⟨known, _, first, second⟩ := legible
    obtain ⟨l, known⟩ := Option.isSome_iff_exists.1 known
    have behind := (right.counts second).followed (.closing (k := .rightParen) (by decide) true)
    have inside := (left.counts first).append (behind.plain (Kind.silent_of_operatorLevel? known) true)
    rw [Expr.lexemes, Lexeme.kinds_cons, Lexeme.kinds_append, Lexeme.kinds_cons,
      Lexeme.kinds_append, Expr.applications_binary, Expr.every]
    exact inside.opening (by decide)
  | .conditional _ condition consequence none, legible => by
    rw [Expr.Legible] at legible
    have whole := (condition.counts legible.1).append (consequence.counts legible.2 true)
    rw [Expr.lexemes, Lexeme.kinds_cons, Lexeme.kinds_append, Expr.applications_conditional,
      Expr.every]
    exact whole.plain (by decide) false
  | .conditional _ condition consequence (some alternative), legible => by
    rw [Expr.Legible] at legible
    obtain ⟨first, second, third⟩ := legible
    have last := (alternative.counts third false).plain (k := .elseWord) (by decide) true
    have whole := (condition.counts first).append ((consequence.counts second true).append last)
    rw [Expr.lexemes, Lexeme.kinds_cons, Lexeme.kinds_append, Lexeme.kinds_append,
      Expr.applications_alternative, Expr.every, Bool.and_assoc]
    exact whole.plain (by decide) false
  | .function _ parameters body, legible => by
    rw [Expr.Legible] at legible
    obtain ⟨ahead, named⟩ := Name.counts_list parameters
    have behind := (body.counts legible.2.2 true).concluding (k := .rightParen) (by decide) ahead
    have whole := (named.append behind).opening (k := .leftParen) (by decide)
    rw [Nat.zero_add] at whole
    rw [Expr.lexemes, Lexeme.kinds_cons, Lexeme.kinds_cons, Lexeme.kinds_append,
      Expr.applications_function, Expr.every]
    exact whole.plain (by decide) false
  | .call _ callee arguments, legible => by
    rw [Expr.Legible] at legible
    obtain ⟨ahead, listed⟩ := Expr.counts_list arguments legible.2
    have behind := listed.followed (.closing (k := .rightParen) (by decide) ahead)
    rw [Expr.lexemes, Lexeme.kinds_append, Lexeme.kinds_cons, Lexeme.kinds_append,
      Expr.applications_call, Expr.every]
    exact (callee.counts legible.1).append (behind.joint (by decide))
  | .array _ elements, legible => by
    rw [Expr.Legible] at legible
    obtain ⟨ahead, listed⟩ := Expr.counts_list elements legible
    have inside := listed.followed (.closing (k := .rightBracket) (by decide) ahead)
    rw [Expr.lexemes, Lexeme.kinds_cons, Lexeme.kinds_append, Expr.applications_array, Expr.every]
    exact inside.opening (by decide)
  | .index _ collection position, legible => by
    rw [Expr.Legible] at legible
    have closed := (Counts.closing (k := .rightParen) (by decide) true).concluding
      (k := .rightBracket) (by decide) true
    have behind := (position.counts legible.2).followed closed
    have inside := (collection.counts legible.1).append
      (behind.joint (k := .leftBracket) (by decide))
    rw [Expr.lexemes, Lexeme.kinds_cons, Lexeme.kinds_append, Lexeme.kinds_cons,
      Lexeme.kinds_append, Expr.applications_index, Expr.every]
    exact inside.opening (by decide)
termination_by structural e => e

theorem Stmt.counts : (s : Stmt) → s.Legible →
    Counts (Lexeme.kinds s.lexemes) false s.isExpression s.applications
      (s.every (fun _ => true) Stmt.unglued)
  | .bare _, legible => by simp at legible
  | .block _, legible => by simp at legible
  | .binding _ name value, legible => by
    rw [Stmt.Legible] at legible
    have ended := (Counts.nil false).plain (k := .semicolon) (by decide) true
    have assigned := ((value.counts legible.2.2).followed ended).plain (k := .assign) (by decide) true
    have named := assigned.concluding (k := .identifier) (by decide) false
    rw [Stmt.lexemes, Lexeme.kinds_cons, Lexeme.kinds_cons, Lexeme.kinds_cons, Lexeme.kinds_append,
      Stmt.applications_binding, Stmt.every]
    exact named.plain (by decide) false
  | .result _ value, legible => by
    rw [Stmt.Legible] at legible
    have ended := (Counts.nil false).plain (k := .semicolon) (by decide) true
    rw [Stmt.lexemes, Lexeme.kinds_cons, Lexeme.kinds_append, Stmt.applications_result, Stmt.every]
    exact ((value.counts legible.2).followed ended).plain (by decide) false
  | .expression _ value, legible => by
    rw [Stmt.Legible] at legible
    rw [Stmt.applications_expression, Stmt.every]
    exact value.counts legible
termination_by structural s => s

theorem Block.counts : (b : Block) → b.Legible → (behind : Bool) →
    Counts (Lexeme.kinds b.lexemes) behind true b.applications
      (b.every (fun _ => true) Stmt.unglued)
  | .mk _ ss, legible, behind => by
    rw [Block.Legible] at legible
    obtain ⟨ahead, listed⟩ := Stmt.counts_list ss legible
    have inside := listed.followed (.closing (k := .rightBrace) (by decide) ahead)
    rw [Block.lexemes, Lexeme.kinds_cons, Lexeme.kinds_append, Block.applications_mk, Block.every]
    exact inside.plain (by decide) behind
termination_by structural b => b

theorem Expr.counts_list : (es : List Expr) → Expr.AllLegible es →
    ∃ ahead, Counts (Lexeme.kinds (Expr.listLexemes es)) false ahead (Expr.allApplications es)
      (Expr.allEvery (fun _ => true) Stmt.unglued es)
  | [], _ => ⟨false, .nil false⟩
  | e :: es, legible => by
    rw [Expr.AllLegible] at legible
    rw [Expr.listLexemes, Lexeme.kinds_append]
    exact ⟨true, (e.counts legible.1).append (Expr.counts_further es legible.2)⟩
termination_by structural es => es

theorem Expr.counts_further : (es : List Expr) → Expr.AllLegible es →
    Counts (Lexeme.kinds (Expr.furtherLexemes es)) true true (Expr.allApplications es)
      (Expr.allEvery (fun _ => true) Stmt.unglued es)
  | [], _ => .nil true
  | e :: es, legible => by
    rw [Expr.AllLegible] at legible
    have behind := (e.counts legible.1).append (Expr.counts_further es legible.2)
    rw [Expr.furtherLexemes, Lexeme.kinds_cons, Lexeme.kinds_append]
    exact behind.plain (by decide) true
termination_by structural es => es

theorem Stmt.counts_list : (ss : List Stmt) → Stmt.AllLegible ss →
    ∃ ahead, Counts (Lexeme.kinds (Stmt.allLexemes ss)) false ahead (Stmt.allApplications ss)
      (Stmt.unglued ss && Stmt.allEvery (fun _ => true) Stmt.unglued ss)
  | [], _ => ⟨false, .nil false⟩
  | s :: ss, legible => by
    rw [Stmt.AllLegible] at legible
    obtain ⟨_, others⟩ := Stmt.counts_list ss legible.2
    obtain ⟨ahead, behind⟩ := others.behind_statement s legible.2
    have whole := (s.counts legible.1).append behind
    rw [Stmt.allLexemes, Lexeme.kinds_append, Stmt.allApplications_cons, Stmt.unglued, Stmt.allEvery]
    rw [Bool.and_left_comm, Bool.and_left_comm _ (Stmt.unglued ss), ← Bool.and_assoc] at whole
    exact ⟨ahead, whole⟩
termination_by structural ss => ss

end

/-- Tokens that are rendered from one program can derive one that is the same only if nothing in it is
glued. -/
theorem Program.unglued_of_derivesFrom {p q : Program} (legible : Stmt.AllLegible p.statements)
    {ts : List Token} (spelled : ts.map Token.lexeme = Stmt.allLexemes p.statements)
    (derives : q.DerivesFrom ts) (same : q.same p = true) : p.unglued = true := by
  have alike : Stmt.allApplications q.statements = Stmt.allApplications p.statements := by
    rw [Program.same_iff_record, ← Stmt.records_eq_map, ← Stmt.records_eq_map] at same
    rw [Stmt.allApplications, same, Stmt.allApplications]
  obtain ⟨ahead, more, apart, counted⟩ := Stmt.counts_list p.statements legible
  have rendered := counted []
  rw [← spelled, kinds_lexemes, List.append_nil, joints_nil] at rendered
  have derived := joints_of_derivesFrom derives
  exact apart (by omega)

end PrattFrontEnd
