import PrattFrontEnd.Proofs.Rendering.Coincidence

/-!
Renderings can be read in one way only. Two legible trees at the front of one list of lexemes are the
same and leave the same rest, as long as what follows them is no part of a longer tree: arguments
behind an expression make it a call. Main statement: `Stmt.records_of_lexemes`, statements that are
rendered as the same lexemes have the same records.
-/
namespace PrattFrontEnd

open Lexeme

/-- The record of an expression that is called with some arguments, and what comes of it with others,
and so on. -/
def Record.called (callee : Record) (groups : List (List Record)) : Record :=
  groups.foldl (fun function arguments =>
    .record "CallExpression" [("function", function), ("arguments", .list arguments)]) callee

def Expr.groupsLexemes (groups : List (List Expr)) : List Lexeme :=
  groups.flatMap Expr.groupLexemes

/-- What an expression is when all its calls are taken off. -/
structure Expr.Spine (e head : Expr) (groups : List (List Expr)) : Prop where
  plain : head.isCall = false
  legible : head.Legible
  allLegible : ∀ g ∈ groups, Expr.AllLegible g
  lexemes : e.lexemes = head.lexemes ++ Expr.groupsLexemes groups
  record : e.record = head.record.called (groups.map Expr.records)

theorem Expr.Spine.here {e : Expr} (legible : e.Legible) (plain : e.isCall = false) :
    e.Spine e [] :=
  ⟨plain, legible, fun _ member => (nomatch member), (List.append_nil _).symm, rfl⟩

theorem Expr.exists_spine : (e : Expr) → e.Legible → ∃ head groups, e.Spine head groups
  | .bare _, legible | .name _, legible | .integer _ _, legible | .string _ _, legible
  | .boolean _ _, legible | .unary _ _ _, legible | .binary _ _ _ _, legible
  | .index _ _ _, legible | .conditional _ _ _ _, legible | .function _ _ _, legible
  | .array _ _, legible => ⟨_, [], .here legible rfl⟩
  | .call token callee arguments, legible => by
    rw [Expr.Legible] at legible
    obtain ⟨head, groups, spine⟩ := callee.exists_spine legible.1
    refine ⟨head, groups ++ [arguments], spine.plain, spine.legible, ?_, ?_, ?_⟩
    · intro g member
      rcases List.mem_append.1 member with before | last
      · exact spine.allLegible g before
      · rw [List.mem_singleton.1 last]
        exact legible.2
    · rw [Expr.lexemes, spine.lexemes, Expr.groupsLexemes, Expr.groupsLexemes, List.flatMap_append,
        List.flatMap_singleton, List.append_assoc]
      rfl
    · rw [Expr.record, spine.record, List.map_append, Record.called, Record.called,
        List.foldl_append]
      rfl
termination_by structural e => e

theorem Expr.unalternative_groups (groups : List (List Expr)) {rest : List Lexeme}
    (noElse : Unalternative rest) : Unalternative (Expr.groupsLexemes groups ++ rest) := by
  cases groups with
  | nil => exact noElse
  | cons g gs => exact unalternative_cons (l := sign '(') (by decide)

section

variable {n : Nat} (shorter : Readable n)

include shorter

theorem Expr.records_of_groups {gs hs : List (List Expr)} {rest more : List Lexeme}
    (legible : ∀ g ∈ gs, Expr.AllLegible g) (legibleToo : ∀ h ∈ hs, Expr.AllLegible h)
    (concludes : Concludes rest) (concludesToo : Concludes more)
    (short : (Expr.groupsLexemes gs ++ rest).length ≤ n)
    (same : Expr.groupsLexemes gs ++ rest = Expr.groupsLexemes hs ++ more) :
    gs.map Expr.records = hs.map Expr.records ∧ rest = more := by
  induction gs generalizing hs with
  | nil =>
    cases hs with
    | nil => exact ⟨rfl, same⟩
    | cons h hs =>
      obtain ⟨first, _⟩ := List.forall_mem_cons.1 legibleToo
      rw [Expr.groupsLexemes, Expr.groupsLexemes, List.flatMap_cons, List.append_assoc] at same
      exact absurd same (concludes.noGroup h _ first)
  | cons g gs ih =>
    obtain ⟨first, others⟩ := List.forall_mem_cons.1 legible
    cases hs with
    | nil =>
      rw [Expr.groupsLexemes, Expr.groupsLexemes, List.flatMap_cons, List.append_assoc] at same
      exact absurd same.symm (concludesToo.noGroup g _ first)
    | cons h hs =>
      obtain ⟨firstToo, othersToo⟩ := List.forall_mem_cons.1 legibleToo
      simp only [Expr.groupsLexemes, List.flatMap_cons, Expr.groupLexemes, List.cons_append,
        List.append_assoc, List.cons.injEq, true_and, List.nil_append, List.length_cons] at same short
      obtain ⟨front, behind⟩ := Expr.records_of_items shorter closesItems_paren
        first firstToo (by omega) same
      rw [List.length_append, List.length_cons] at short
      obtain ⟨groups, rests⟩ := ih others othersToo (by rw [Expr.groupsLexemes]; omega) behind
      exact ⟨by rw [List.map_cons, List.map_cons, front, groups], rests⟩

theorem Readable.exprs_succ : ReadableExprs (n + 1) := by
  constructor
  intro e f rest more short legible legibleToo concludes concludesToo same
  obtain ⟨head, gs, spine⟩ := e.exists_spine legible
  obtain ⟨headToo, hs, spineToo⟩ := f.exists_spine legibleToo
  rw [spine.lexemes, spineToo.lexemes, List.append_assoc, List.append_assoc] at same
  rw [spine.lexemes, List.append_assoc] at short
  have openings := Expr.opening_eq spine.legible spineToo.legible same
  have coincide := Expr.coincide shorter spine.legible spineToo.legible spine.plain spineToo.plain
    openings
  obtain ⟨heads, behind⟩ := coincide _ _ (Nat.le_of_lt_succ short)
    (Expr.unalternative_groups gs concludes.noElse) (Expr.unalternative_groups hs concludesToo.noElse)
    same
  rw [List.length_append] at short
  obtain ⟨groups, rests⟩ := Expr.records_of_groups shorter spine.allLegible spineToo.allLegible
    concludes concludesToo (by omega) behind
  exact ⟨by rw [spine.record, spineToo.record, heads, groups], rests⟩

theorem Stmt.concludes_all {ss : List Stmt} (legible : Stmt.AllLegible ss) {rest : List Lexeme}
    (shuts : Shuts rest) (short : (Stmt.allLexemes ss ++ rest).length ≤ n) :
    Concludes (Stmt.allLexemes ss ++ rest) := by
  cases ss with
  | nil => exact shuts.concludes
  | cons s ss =>
    rw [Stmt.AllLegible] at legible
    rw [Stmt.allLexemes, List.append_assoc] at short ⊢
    cases s with
    | bare _ => simp at legible
    | block _ => simp at legible
    | binding token name value =>
      rw [Stmt.lexemes]
      exact concludes_cons (l := word "let") (by decide) (by decide)
    | result token value =>
      rw [Stmt.lexemes]
      exact concludes_cons (l := word "return") (by decide) (by decide)
    | expression token value =>
      rw [Stmt.Legible] at legible
      rw [Stmt.lexemes] at short ⊢
      constructor
      · obtain ⟨l, ls, front, opens⟩ := value.opens legible.1
        rw [front]
        refine unalternative_cons ?_
        intro otherwise
        rw [otherwise] at opens
        cases opens
      · intro es more legibleToo
        exact Expr.no_group shorter value legible.1 short legibleToo

end

theorem Stmt.record_of_front {n : Nat} (readable : ReadableExprs n) {s t : Stmt}
    {rest more : List Lexeme} (legible : s.Legible) (legibleToo : t.Legible)
    (concludes : Concludes rest) (concludesToo : Concludes more)
    (short : (s.lexemes ++ rest).length < n) (same : s.lexemes ++ rest = t.lexemes ++ more) :
    s.record = t.record ∧ rest = more := by
  have semicolon : ∀ rest, Concludes (sign ';' :: rest) := fun _ =>
    concludes_cons (by decide) (by decide)
  cases s with
  | bare _ => simp at legible
  | block _ => simp at legible
  | binding _ name value =>
    rw [Stmt.Legible] at legible
    cases t with
    | bare _ => simp at legibleToo
    | block _ => simp at legibleToo
    | result _ _ => cases congrArg Lexeme.kind (List.cons.inj same).1
    | expression _ _ =>
      rw [Stmt.Legible] at legibleToo
      cases Expr.opening_of_front legibleToo same.symm
    | binding _ nameToo valueToo =>
      rw [Stmt.Legible] at legibleToo
      simp only [Stmt.lexemes, List.cons_append, List.append_assoc, List.nil_append,
        List.cons.injEq, true_and, List.length_cons] at same short
      obtain ⟨named, inside⟩ := same
      have text : name.text = nameToo.text := String.toList_inj.1 (congrArg Lexeme.value named)
      obtain ⟨values, behind⟩ := readable.expr (by omega) legible.2.2 legibleToo.2.2
        (semicolon _) (semicolon _) inside
      exact ⟨by rw [Stmt.record, Stmt.record, Name.record, Name.record, text, values],
        (List.cons.inj behind).2⟩
  | result _ value =>
    rw [Stmt.Legible] at legible
    cases t with
    | bare _ => simp at legibleToo
    | block _ => simp at legibleToo
    | binding _ _ _ => cases congrArg Lexeme.kind (List.cons.inj same).1
    | expression _ _ =>
      rw [Stmt.Legible] at legibleToo
      cases Expr.opening_of_front legibleToo same.symm
    | result _ valueToo =>
      rw [Stmt.Legible] at legibleToo
      simp only [Stmt.lexemes, List.cons_append, List.append_assoc, List.nil_append,
        List.cons.injEq, true_and, List.length_cons] at same short
      obtain ⟨values, behind⟩ := readable.expr (by omega) legible.2 legibleToo.2
        (semicolon _) (semicolon _) same
      exact ⟨by rw [Stmt.record, Stmt.record, values], (List.cons.inj behind).2⟩
  | expression _ value =>
    rw [Stmt.Legible] at legible
    cases t with
    | bare _ => simp at legibleToo
    | block _ => simp at legibleToo
    | binding _ _ _ | result _ _ => cases Expr.opening_of_front legible same
    | expression _ valueToo =>
      rw [Stmt.Legible] at legibleToo
      rw [Stmt.lexemes] at short
      rw [Stmt.lexemes, Stmt.lexemes] at same
      obtain ⟨values, rests⟩ :=
        readable.expr short legible legibleToo concludes concludesToo same
      exact ⟨by rw [Stmt.record, Stmt.record, values], rests⟩

theorem Stmt.front {s : Stmt} (legible : s.Legible) :
    ∃ l ls, s.lexemes = l :: ls ∧ l.kind ≠ .rightBrace := by
  cases s with
  | bare _ => simp at legible
  | block _ => simp at legible
  | binding _ _ _ =>
    rw [Stmt.lexemes]
    exact ⟨_, _, rfl, by decide⟩
  | result _ _ =>
    rw [Stmt.lexemes]
    exact ⟨_, _, rfl, by decide⟩
  | expression _ value =>
    rw [Stmt.Legible] at legible
    obtain ⟨l, ls, front, opens⟩ := value.opens legible
    refine ⟨l, ls, by rw [Stmt.lexemes, front], ?_⟩
    intro brace
    rw [brace] at opens
    cases opens

theorem Readable.succ {n : Nat} (shorter : Readable n) : Readable (n + 1) := by
  have readable := shorter.exprs_succ
  refine ⟨readable, ?_⟩
  intro ss ts rest more short legible legibleToo shuts shutsToo same
  induction ss generalizing ts with
  | nil =>
    cases ts with
    | nil => exact ⟨rfl, same⟩
    | cons t ts =>
      rw [Stmt.AllLegible] at legibleToo
      obtain ⟨l, ls, front, other⟩ := Stmt.front legibleToo.1
      rw [Stmt.allLexemes, Stmt.allLexemes, front] at same
      cases same
      exact absurd (shuts l rfl) other
  | cons s ss ih =>
    rw [Stmt.AllLegible] at legible
    cases ts with
    | nil =>
      obtain ⟨l, ls, front, other⟩ := Stmt.front legible.1
      rw [Stmt.allLexemes, Stmt.allLexemes, front] at same
      cases same
      exact absurd (shutsToo l rfl) other
    | cons t ts =>
      rw [Stmt.AllLegible] at legibleToo
      rw [Stmt.allLexemes, Stmt.allLexemes, List.append_assoc, List.append_assoc] at same
      rw [Stmt.allLexemes, List.append_assoc] at short
      have lengths := congrArg List.length same
      simp only [List.length_append] at lengths short
      have behind := Stmt.concludes_all shorter legible.2 shuts
        (by rw [List.length_append]; omega)
      have behindToo := Stmt.concludes_all shorter legibleToo.2 shutsToo
        (by rw [List.length_append]; omega)
      obtain ⟨first, last⟩ :=
        Stmt.record_of_front readable legible.1 legibleToo.1 behind behindToo
          (by simp only [List.length_append]; omega) same
      obtain ⟨others, rests⟩ := ih (by rw [List.length_append]; omega) legible.2 legibleToo.2 last
      exact ⟨by rw [Stmt.records, Stmt.records, first, others], rests⟩

theorem readable (n : Nat) : Readable n := by
  induction n with
  | zero =>
    refine ⟨⟨?_⟩, ?_⟩
    · intro e f rest more short
      exact absurd short (Nat.not_lt_zero _)
    · intro ss ts rest more short
      exact absurd short (Nat.not_lt_zero _)
  | succ n ih => exact ih.succ

theorem Stmt.records_of_lexemes {ss ts : List Stmt} (legible : Stmt.AllLegible ss)
    (legibleToo : Stmt.AllLegible ts) (same : Stmt.allLexemes ss = Stmt.allLexemes ts) :
    Stmt.records ss = Stmt.records ts := by
  have nothing : Shuts [] := fun l front => nomatch front
  have whole : Stmt.allLexemes ss ++ [] = Stmt.allLexemes ts ++ [] := by rw [same]
  exact ((readable _).stmts (Nat.lt_succ_self _) legible legibleToo nothing nothing whole).1

end PrattFrontEnd
