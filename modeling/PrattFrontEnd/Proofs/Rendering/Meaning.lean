import PrattFrontEnd.Proofs.Rendering.Gluing
import PrattFrontEnd.Proofs.Rendering.RoundTrip

/-!
When a rendering is parsed into another program. A condition that is rendered without parentheses
cannot be parsed at all, so only statements that are glued to one another can change what a program
means, and they always do. Main statement: `clean_reparse_keeps_program_iff_unglued`.
-/
namespace PrattFrontEnd

open Lexeme

theorem Name.grouped_further (names : List Name) :
    Grouped (Lexeme.kinds (Name.furtherLexemes names)) := by
  induction names with
  | nil => exact .nil
  | cons n names ih =>
    have named := Grouped.cons (k := .identifier) (by decide) ih
    exact named.cons (k := .comma) (by decide)

theorem Name.grouped_list (names : List Name) : Grouped (Lexeme.kinds (Name.listLexemes names)) := by
  cases names with
  | nil => exact .nil
  | cons n names => exact (Name.grouped_further names).cons (k := .identifier) (by decide)

/-- A list of kinds that is one group in parentheses. -/
def IsGroup (ks : List Kind) : Prop :=
  ∃ inside, Grouped inside ∧ ks = .leftParen :: (inside ++ [.rightParen])

theorem IsGroup.grouped {ks : List Kind} (group : IsGroup ks) : Grouped ks := by
  obtain ⟨inside, grouped, rfl⟩ := group
  exact grouped.parens .nil

section

variable {token : Token} {operator : String} {left right : Expr}

theorem group_of_unary (legible : (Expr.unary token operator right).Legible)
    (operand : Grouped (Lexeme.kinds right.lexemes)) :
    IsGroup (Lexeme.kinds (Expr.unary token operator right).lexemes) := by
  rw [Expr.Legible] at legible
  have plain : token.kind ∉ [.leftParen, .rightParen] := by
    rcases legible.1 with kind | kind <;> rw [kind] <;> decide
  refine ⟨_, operand.cons plain, ?_⟩
  rw [Expr.lexemes, Lexeme.kinds_cons, Lexeme.kinds_cons, Lexeme.kinds_append]
  rfl

theorem group_of_binary (legible : (Expr.binary token left operator right).Legible)
    (first : Grouped (Lexeme.kinds left.lexemes)) (second : Grouped (Lexeme.kinds right.lexemes)) :
    IsGroup (Lexeme.kinds (Expr.binary token left operator right).lexemes) := by
  rw [Expr.Legible] at legible
  obtain ⟨l, known⟩ := Option.isSome_iff_exists.1 legible.1
  have plain : token.kind ∉ [.leftParen, .rightParen] := by
    intro member
    exact Kind.plain_of_operatorLevel? known (List.mem_of_mem_take (i := 2) member)
  refine ⟨_, first.append (second.cons plain), ?_⟩
  rw [Expr.lexemes, Lexeme.kinds_cons, Lexeme.kinds_append, Lexeme.kinds_cons,
    Lexeme.kinds_append, List.append_assoc]
  rfl

theorem group_of_index (first : Grouped (Lexeme.kinds left.lexemes))
    (second : Grouped (Lexeme.kinds right.lexemes)) :
    IsGroup (Lexeme.kinds (Expr.index token left right).lexemes) := by
  have behind := second.append (.cons (k := .rightBracket) (by decide) .nil)
  refine ⟨_, first.append (behind.cons (k := .leftBracket) (by decide)), ?_⟩
  rw [Expr.lexemes, Lexeme.kinds_cons, Lexeme.kinds_append, Lexeme.kinds_cons,
    Lexeme.kinds_append, List.append_assoc, List.cons_append, List.append_assoc]
  rfl

end

mutual

theorem Expr.grouped : (e : Expr) → e.Legible → Grouped (Lexeme.kinds e.lexemes)
  | .bare _, legible => by simp at legible
  | .name _, _ => .cons (k := .identifier) (by decide) .nil
  | .integer _ _, _ => .cons (k := .integer) (by decide) .nil
  | .string _ _, _ => .cons (k := .string) (by decide) .nil
  | .boolean _ true, _ => .cons (k := .trueWord) (by decide) .nil
  | .boolean _ false, _ => .cons (k := .falseWord) (by decide) .nil
  | .unary _ _ operand, legible => by
    have subtree := legible
    rw [Expr.Legible] at subtree
    exact (group_of_unary legible (operand.grouped subtree.2.2)).grouped
  | .binary _ left _ right, legible => by
    have subtrees := legible
    rw [Expr.Legible] at subtrees
    obtain ⟨_, _, first, second⟩ := subtrees
    exact (group_of_binary legible (left.grouped first) (right.grouped second)).grouped
  | .conditional _ condition consequence none, legible => by
    rw [Expr.Legible] at legible
    have whole := (condition.grouped legible.1).append (consequence.grouped legible.2)
    rw [Expr.lexemes, Lexeme.kinds_cons, Lexeme.kinds_append]
    exact whole.cons (by decide)
  | .conditional _ condition consequence (some alternative), legible => by
    rw [Expr.Legible] at legible
    obtain ⟨first, second, third⟩ := legible
    have last := (alternative.grouped third).cons (k := .elseWord) (by decide)
    have whole := (condition.grouped first).append ((consequence.grouped second).append last)
    rw [Expr.lexemes, Lexeme.kinds_cons, Lexeme.kinds_append, Lexeme.kinds_append]
    exact whole.cons (by decide)
  | .function _ parameters body, legible => by
    rw [Expr.Legible] at legible
    have whole := (Name.grouped_list parameters).parens (body.grouped legible.2.2)
    rw [Expr.lexemes, Lexeme.kinds_cons, Lexeme.kinds_cons, Lexeme.kinds_append]
    exact whole.cons (by decide)
  | .call _ callee arguments, legible => by
    rw [Expr.Legible] at legible
    have behind := (Expr.grouped_list arguments legible.2).parens .nil
    rw [Expr.lexemes, Lexeme.kinds_append, Lexeme.kinds_cons, Lexeme.kinds_append]
    exact (callee.grouped legible.1).append behind
  | .array _ elements, legible => by
    rw [Expr.Legible] at legible
    have inside := (Expr.grouped_list elements legible).append
      (.cons (k := .rightBracket) (by decide) .nil)
    rw [Expr.lexemes, Lexeme.kinds_cons, Lexeme.kinds_append]
    exact inside.cons (by decide)
  | .index _ collection position, legible => by
    rw [Expr.Legible] at legible
    exact (group_of_index (collection.grouped legible.1) (position.grouped legible.2)).grouped
termination_by structural e => e

theorem Stmt.grouped : (s : Stmt) → s.Legible → Grouped (Lexeme.kinds s.lexemes)
  | .bare _, legible => by simp at legible
  | .block _, legible => by simp at legible
  | .binding _ name value, legible => by
    rw [Stmt.Legible] at legible
    have behind := (value.grouped legible.2.2).append
      (.cons (k := .semicolon) (by decide) .nil)
    have assigned := behind.cons (k := .assign) (by decide)
    have named := assigned.cons (k := .identifier) (by decide)
    rw [Stmt.lexemes, Lexeme.kinds_cons, Lexeme.kinds_cons, Lexeme.kinds_cons, Lexeme.kinds_append]
    exact named.cons (by decide)
  | .result _ value, legible => by
    rw [Stmt.Legible] at legible
    have behind := (value.grouped legible.2).append (.cons (k := .semicolon) (by decide) .nil)
    rw [Stmt.lexemes, Lexeme.kinds_cons, Lexeme.kinds_append]
    exact behind.cons (by decide)
  | .expression _ value, legible => by
    rw [Stmt.Legible] at legible
    exact value.grouped legible
termination_by structural s => s

theorem Block.grouped : (b : Block) → b.Legible → Grouped (Lexeme.kinds b.lexemes)
  | .mk _ ss, legible => by
    rw [Block.Legible] at legible
    have inside := (Stmt.grouped_list ss legible).append
      (.cons (k := .rightBrace) (by decide) .nil)
    rw [Block.lexemes, Lexeme.kinds_cons, Lexeme.kinds_append]
    exact inside.cons (by decide)
termination_by structural b => b

theorem Expr.grouped_list : (es : List Expr) → Expr.AllLegible es →
    Grouped (Lexeme.kinds (Expr.listLexemes es))
  | [], _ => .nil
  | e :: es, legible => by
    rw [Expr.AllLegible] at legible
    rw [Expr.listLexemes, Lexeme.kinds_append]
    exact (e.grouped legible.1).append (Expr.grouped_further es legible.2)
termination_by structural es => es

theorem Expr.grouped_further : (es : List Expr) → Expr.AllLegible es →
    Grouped (Lexeme.kinds (Expr.furtherLexemes es))
  | [], _ => .nil
  | e :: es, legible => by
    rw [Expr.AllLegible] at legible
    have behind := (e.grouped legible.1).append (Expr.grouped_further es legible.2)
    rw [Expr.furtherLexemes, Lexeme.kinds_cons, Lexeme.kinds_append]
    exact behind.cons (by decide)
termination_by structural es => es

theorem Stmt.grouped_list : (ss : List Stmt) → Stmt.AllLegible ss →
    Grouped (Lexeme.kinds (Stmt.allLexemes ss))
  | [], _ => .nil
  | s :: ss, legible => by
    rw [Stmt.AllLegible] at legible
    rw [Stmt.allLexemes, Lexeme.kinds_append]
    exact (s.grouped legible.1).append (Stmt.grouped_list ss legible.2)
termination_by structural ss => ss

end

theorem Expr.group_of_parenthesised {e : Expr} (legible : e.Legible)
    (shown : e.parenthesised = true) : IsGroup (Lexeme.kinds e.lexemes) := by
  cases e with
  | unary token operator operand =>
    have subtree := legible
    rw [Expr.Legible] at subtree
    exact group_of_unary legible (operand.grouped subtree.2.2)
  | binary token left operator right =>
    have subtrees := legible
    rw [Expr.Legible] at subtrees
    obtain ⟨_, _, first, second⟩ := subtrees
    exact group_of_binary legible (left.grouped first) (right.grouped second)
  | index token collection position =>
    rw [Expr.Legible] at legible
    exact group_of_index (collection.grouped legible.1) (position.grouped legible.2)
  | _ => cases shown

theorem Expr.front_of_plain : (e : Expr) → e.Legible → e.parenthesised = false →
    (∃ k ks, Lexeme.kinds e.lexemes = k :: ks ∧ k ≠ .leftParen) ∨
      ∃ inside ks, Grouped inside ∧
        Lexeme.kinds e.lexemes = .leftParen :: (inside ++ .rightParen :: .leftParen :: ks)
  | .bare _, legible, _ => by simp at legible
  | .name _, _, _ => by
    rw [Expr.lexemes, Lexeme.kinds_cons]
    exact Or.inl ⟨.identifier, _, rfl, by decide⟩
  | .integer _ _, _, _ => by
    rw [Expr.lexemes, Lexeme.kinds_cons]
    exact Or.inl ⟨.integer, _, rfl, by decide⟩
  | .string _ _, _, _ => by
    rw [Expr.lexemes, Lexeme.kinds_cons]
    exact Or.inl ⟨.string, _, rfl, by decide⟩
  | .boolean _ true, _, _ => by
    rw [Expr.lexemes, Lexeme.kinds_cons]
    exact Or.inl ⟨.trueWord, _, rfl, by decide⟩
  | .boolean _ false, _, _ => by
    rw [Expr.lexemes, Lexeme.kinds_cons]
    exact Or.inl ⟨.falseWord, _, rfl, by decide⟩
  | .unary _ _ _, _, shown | .binary _ _ _ _, _, shown | .index _ _ _, _, shown => by cases shown
  | .conditional _ _ _ none, _, _ => by
    rw [Expr.lexemes, Lexeme.kinds_cons]
    exact Or.inl ⟨.ifWord, _, rfl, by decide⟩
  | .conditional _ _ _ (some _), _, _ => by
    rw [Expr.lexemes, Lexeme.kinds_cons]
    exact Or.inl ⟨.ifWord, _, rfl, by decide⟩
  | .function _ _ _, _, _ => by
    rw [Expr.lexemes, Lexeme.kinds_cons]
    exact Or.inl ⟨.functionWord, _, rfl, by decide⟩
  | .array _ _, _, _ => by
    rw [Expr.lexemes, Lexeme.kinds_cons]
    exact Or.inl ⟨.leftBracket, _, rfl, by decide⟩
  | .call _ callee arguments, legible, _ => by
    rw [Expr.Legible] at legible
    rw [Expr.lexemes, Lexeme.kinds_append]
    generalize called : Lexeme.kinds (sign '(' :: (Expr.listLexemes arguments ++ [sign ')'])) = ks
    have opens : ∃ more, ks = .leftParen :: more := ⟨_, called.symm⟩
    obtain ⟨ks, rfl⟩ := opens
    cases shown : callee.parenthesised with
    | true =>
      obtain ⟨inside, grouped, same⟩ := Expr.group_of_parenthesised legible.1 shown
      exact Or.inr ⟨inside, ks, grouped, by rw [same]; simp⟩
    | false =>
      rcases callee.front_of_plain legible.1 shown with
        ⟨k, more, same, other⟩ | ⟨inside, more, grouped, same⟩
      · exact Or.inl ⟨k, more ++ .leftParen :: ks, by rw [same]; rfl, other⟩
      · exact Or.inr ⟨inside, more ++ .leftParen :: ks, grouped, by rw [same]; simp⟩
termination_by structural e => e

theorem Expr.parenthesised_of_guarded {whole : List Kind} (guarded : Guarded whole) {e : Expr}
    (legible : e.Legible) {rest : List Kind}
    (inside : .ifWord :: (Lexeme.kinds e.lexemes ++ .leftBrace :: rest) <:+: whole) :
    e.parenthesised = true := by
  cases shown : e.parenthesised with
  | true => rfl
  | false =>
    obtain ⟨before, after, split⟩ := inside
    have front : whole =
        before ++ .ifWord :: (Lexeme.kinds e.lexemes ++ .leftBrace :: (rest ++ after)) := by
      rw [← split]
      simp
    obtain ⟨group, more, grouped, same⟩ := guarded before _ front
    rcases e.front_of_plain legible shown with
      ⟨k, ks, first, other⟩ | ⟨groupToo, ks, groupedToo, first⟩
    · rw [first] at same
      exact absurd (List.cons.inj same).1 other
    · rw [first] at same
      have behind := congrArg (pastGroup 0) (List.cons.inj same).2
      rw [List.append_eq, List.append_assoc, groupedToo, grouped] at behind
      simp [pastGroup] at behind

section infixes

variable {k : Kind} {ks ls whole : List Kind}

theorem infix_tail (inside : k :: ks <:+: whole) : ks <:+: whole :=
  (List.suffix_cons k ks).isInfix.trans inside

theorem infix_left (inside : ks ++ ls <:+: whole) : ks <:+: whole :=
  (List.prefix_append ks ls).isInfix.trans inside

theorem infix_right (inside : ks ++ ls <:+: whole) : ls <:+: whole :=
  (List.suffix_append ks ls).isInfix.trans inside

end infixes

theorem Block.front (b : Block) : ∃ ks, Lexeme.kinds b.lexemes = .leftBrace :: ks := by
  obtain ⟨token, ss⟩ := b
  exact ⟨_, rfl⟩

section

variable {whole : List Kind} {sequence : List Stmt → Bool}

mutual

theorem Expr.every_of_guarded (guarded : Guarded whole) : (e : Expr) → e.Legible →
    Lexeme.kinds e.lexemes <:+: whole → e.every (fun _ => true) sequence = true →
    e.every Expr.parenthesised sequence = true
  | .bare _, _, _, _ | .name _, _, _, _ | .integer _ _, _, _, _ | .string _ _, _, _, _
  | .boolean _ _, _, _, _ => rfl
  | .unary _ _ operand, legible, inside, every => by
    rw [Expr.Legible] at legible
    rw [Expr.every] at every ⊢
    rw [Expr.lexemes, Lexeme.kinds_cons, Lexeme.kinds_cons, Lexeme.kinds_append] at inside
    have here := infix_left (infix_tail (infix_tail inside))
    exact operand.every_of_guarded guarded legible.2.2 here every
  | .binary _ left _ right, legible, inside, every => by
    rw [Expr.Legible] at legible
    obtain ⟨_, _, first, second⟩ := legible
    rw [Expr.every, Bool.and_eq_true] at every ⊢
    rw [Expr.lexemes, Lexeme.kinds_cons, Lexeme.kinds_append, Lexeme.kinds_cons,
      Lexeme.kinds_append] at inside
    have before := infix_left (infix_tail inside)
    have behind := infix_left (infix_tail (infix_right (infix_tail inside)))
    exact ⟨left.every_of_guarded guarded first before every.1,
      right.every_of_guarded guarded second behind every.2⟩
  | .conditional _ condition consequence none, legible, inside, every => by
    rw [Expr.Legible] at legible
    rw [Expr.every, Bool.and_eq_true, Bool.and_eq_true] at every ⊢
    rw [Expr.lexemes, Lexeme.kinds_cons, Lexeme.kinds_append] at inside
    have before := infix_left (infix_tail inside)
    have behind := infix_right (infix_tail inside)
    obtain ⟨ks, front⟩ := consequence.front
    rw [front] at inside
    exact ⟨⟨Expr.parenthesised_of_guarded guarded legible.1 inside,
      condition.every_of_guarded guarded legible.1 before every.1.2⟩,
      consequence.every_of_guarded guarded legible.2 behind every.2⟩
  | .conditional _ condition consequence (some alternative), legible, inside, every => by
    rw [Expr.Legible] at legible
    obtain ⟨first, second, third⟩ := legible
    rw [Expr.every, Bool.and_eq_true, Bool.and_eq_true, Bool.and_eq_true] at every ⊢
    obtain ⟨⟨⟨_, everyFirst⟩, everySecond⟩, everyThird⟩ := every
    rw [Expr.lexemes, Lexeme.kinds_cons, Lexeme.kinds_append, Lexeme.kinds_append,
      Lexeme.kinds_cons] at inside
    have before := infix_left (infix_tail inside)
    have between := infix_left (infix_right (infix_tail inside))
    have behind := infix_tail (infix_right (infix_right (infix_tail inside)))
    obtain ⟨ks, front⟩ := consequence.front
    rw [front] at inside
    exact ⟨⟨⟨Expr.parenthesised_of_guarded guarded first inside,
      condition.every_of_guarded guarded first before everyFirst⟩,
      consequence.every_of_guarded guarded second between everySecond⟩,
      alternative.every_of_guarded guarded third behind everyThird⟩
  | .function _ parameters body, legible, inside, every => by
    rw [Expr.Legible] at legible
    rw [Expr.every] at every ⊢
    rw [Expr.lexemes, Lexeme.kinds_cons, Lexeme.kinds_cons, Lexeme.kinds_append,
      Lexeme.kinds_cons] at inside
    have behind := infix_tail (infix_right (infix_tail (infix_tail inside)))
    exact body.every_of_guarded guarded legible.2.2 behind every
  | .call _ callee arguments, legible, inside, every => by
    rw [Expr.Legible] at legible
    rw [Expr.every, Bool.and_eq_true] at every ⊢
    rw [Expr.lexemes, Lexeme.kinds_append, Lexeme.kinds_cons, Lexeme.kinds_append] at inside
    have behind := infix_left (infix_tail (infix_right inside))
    exact ⟨callee.every_of_guarded guarded legible.1 (infix_left inside) every.1,
      Expr.every_of_guarded_list guarded arguments legible.2 behind every.2⟩
  | .array _ elements, legible, inside, every => by
    rw [Expr.Legible] at legible
    rw [Expr.every] at every ⊢
    rw [Expr.lexemes, Lexeme.kinds_cons, Lexeme.kinds_append] at inside
    exact Expr.every_of_guarded_list guarded elements legible (infix_left (infix_tail inside)) every
  | .index _ collection position, legible, inside, every => by
    rw [Expr.Legible] at legible
    rw [Expr.every, Bool.and_eq_true] at every ⊢
    rw [Expr.lexemes, Lexeme.kinds_cons, Lexeme.kinds_append, Lexeme.kinds_cons,
      Lexeme.kinds_append] at inside
    have before := infix_left (infix_tail inside)
    have behind := infix_left (infix_tail (infix_right (infix_tail inside)))
    exact ⟨collection.every_of_guarded guarded legible.1 before every.1,
      position.every_of_guarded guarded legible.2 behind every.2⟩
termination_by structural e => e

theorem Stmt.every_of_guarded (guarded : Guarded whole) : (s : Stmt) → s.Legible →
    Lexeme.kinds s.lexemes <:+: whole → s.every (fun _ => true) sequence = true →
    s.every Expr.parenthesised sequence = true
  | .bare _, _, _, _ => rfl
  | .block _, legible, _, _ => by simp at legible
  | .binding _ _ value, legible, inside, every => by
    rw [Stmt.Legible] at legible
    rw [Stmt.every] at every ⊢
    rw [Stmt.lexemes, Lexeme.kinds_cons, Lexeme.kinds_cons, Lexeme.kinds_cons,
      Lexeme.kinds_append] at inside
    have here := infix_left (infix_tail (infix_tail (infix_tail inside)))
    exact value.every_of_guarded guarded legible.2.2 here every
  | .result _ value, legible, inside, every => by
    rw [Stmt.Legible] at legible
    rw [Stmt.every] at every ⊢
    rw [Stmt.lexemes, Lexeme.kinds_cons, Lexeme.kinds_append] at inside
    exact value.every_of_guarded guarded legible.2 (infix_left (infix_tail inside)) every
  | .expression _ value, legible, inside, every => by
    rw [Stmt.Legible] at legible
    rw [Stmt.every] at every ⊢
    exact value.every_of_guarded guarded legible inside every
termination_by structural s => s

theorem Block.every_of_guarded (guarded : Guarded whole) : (b : Block) → b.Legible →
    Lexeme.kinds b.lexemes <:+: whole → b.every (fun _ => true) sequence = true →
    b.every Expr.parenthesised sequence = true
  | .mk _ ss, legible, inside, every => by
    rw [Block.Legible] at legible
    rw [Block.every, Bool.and_eq_true] at every ⊢
    rw [Block.lexemes, Lexeme.kinds_cons, Lexeme.kinds_append] at inside
    exact ⟨every.1,
      Stmt.every_of_guarded_list guarded ss legible (infix_left (infix_tail inside)) every.2⟩
termination_by structural b => b

theorem Expr.every_of_guarded_list (guarded : Guarded whole) :
    (es : List Expr) → Expr.AllLegible es → Lexeme.kinds (Expr.listLexemes es) <:+: whole →
    Expr.allEvery (fun _ => true) sequence es = true →
    Expr.allEvery Expr.parenthesised sequence es = true
  | [], _, _, _ => rfl
  | e :: es, legible, inside, every => by
    rw [Expr.AllLegible] at legible
    rw [Expr.allEvery, Bool.and_eq_true] at every ⊢
    rw [Expr.listLexemes, Lexeme.kinds_append] at inside
    exact ⟨e.every_of_guarded guarded legible.1 (infix_left inside) every.1,
      Expr.every_of_guarded_further guarded es legible.2 (infix_right inside) every.2⟩
termination_by structural es => es

theorem Expr.every_of_guarded_further (guarded : Guarded whole) :
    (es : List Expr) → Expr.AllLegible es → Lexeme.kinds (Expr.furtherLexemes es) <:+: whole →
    Expr.allEvery (fun _ => true) sequence es = true →
    Expr.allEvery Expr.parenthesised sequence es = true
  | [], _, _, _ => rfl
  | e :: es, legible, inside, every => by
    rw [Expr.AllLegible] at legible
    rw [Expr.allEvery, Bool.and_eq_true] at every ⊢
    rw [Expr.furtherLexemes, Lexeme.kinds_cons, Lexeme.kinds_append] at inside
    exact ⟨e.every_of_guarded guarded legible.1 (infix_left (infix_tail inside)) every.1,
      Expr.every_of_guarded_further guarded es legible.2 (infix_right (infix_tail inside)) every.2⟩
termination_by structural es => es

theorem Stmt.every_of_guarded_list (guarded : Guarded whole) :
    (ss : List Stmt) → Stmt.AllLegible ss → Lexeme.kinds (Stmt.allLexemes ss) <:+: whole →
    Stmt.allEvery (fun _ => true) sequence ss = true →
    Stmt.allEvery Expr.parenthesised sequence ss = true
  | [], _, _, _ => rfl
  | s :: ss, legible, inside, every => by
    rw [Stmt.AllLegible] at legible
    rw [Stmt.allEvery, Bool.and_eq_true] at every ⊢
    rw [Stmt.allLexemes, Lexeme.kinds_append] at inside
    exact ⟨s.every_of_guarded guarded legible.1 (infix_left inside) every.1,
      Stmt.every_of_guarded_list guarded ss legible.2 (infix_right inside) every.2⟩
termination_by structural ss => ss

end

end

theorem Program.eq_of_derivesFrom {source : String} {ts : List Token} {p q : Program}
    (delivers : (Source.ofString source).Delivers ts) (first : p.DerivesFrom ts)
    (second : q.DerivesFrom ts) : p = q := by
  have deep : (ts.length : Int) ≤ ts.length := Int.le_refl _
  rw [← (parse_of_derivesFrom delivers first deep).1,
    (parse_of_derivesFrom delivers second deep).1]

theorem Program.renderingSafe_of_derivesFrom {p q : Program} (legible : Stmt.AllLegible p.statements)
    (apart : p.unglued = true) {ts : List Token}
    (spelled : ts.map Token.lexeme = Stmt.allLexemes p.statements) (derives : q.DerivesFrom ts) :
    p.renderingSafe = true := by
  have guarded := guarded_of_derivesFrom derives
  rw [← kinds_lexemes, spelled] at guarded
  rw [unglued, every, Bool.and_eq_true] at apart
  rw [renderingSafe, every, Bool.and_eq_true]
  exact ⟨apart.1,
    Stmt.every_of_guarded_list guarded p.statements legible (List.infix_refl _) apart.2⟩

theorem Program.same_iff_unglued {source : String} {p q : Program}
    (legible : Stmt.AllLegible p.statements) {ts : List Token}
    (delivers : (Source.ofString source).Delivers ts)
    (spelled : ts.map Token.lexeme = Stmt.allLexemes p.statements) (derives : q.DerivesFrom ts) :
    q.same p = true ↔ p.unglued = true := by
  constructor
  · exact Program.unglued_of_derivesFrom legible spelled derives
  · intro apart
    have safe := Program.renderingSafe_of_derivesFrom legible apart spelled derives
    obtain ⟨r, derivesToo, same⟩ := Program.rederives legible safe spelled
    rw [Program.eq_of_derivesFrom delivers derives derivesToo]
    exact same

/-- A rendering that is parsed without a diagnostic is parsed into the same program if no expression
statement is glued to another, and into a different one if any is. -/
theorem clean_reparse_keeps_program_iff_unglued (source : String) (maxDepth cap : Int)
    (clean : (parse (parse source maxDepth).program.render cap).diagnostics = []) :
    (parse (parse source maxDepth).program.render cap).program.same
        (parse source maxDepth).program = true ↔
      (parse source maxDepth).program.unglued = true := by
  have legible := legible_of_parse source maxDepth
  generalize (parse source maxDepth).program = p at clean legible
  obtain ⟨ts, delivers, spelled, _⟩ := p.delivers_of_legible legible
  have derives : (parse p.render cap).program.DerivesFrom ts :=
    derivation_of_run (Parser.ready_onSource _ _) (Parser.on_onSource cap delivers) clean
  exact Program.same_iff_unglued legible delivers spelled derives

/-- Behind a binding nothing is glued. -/
theorem product_behind_binding_keeps_its_meaning :
    (parse (parse "3 + 4; let x = 5; -5 * x" 100).program.render 9).program.same
      (parse "3 + 4; let x = 5; -5 * x" 100).program = true :=
  (clean_reparse_keeps_program_iff_unglued "3 + 4; let x = 5; -5 * x" 100 9 (by decide +kernel)).2
    (by decide +kernel)

/-- Glued to one another, a sum and a product are parsed as a call of the sum. -/
theorem glued_product_changes_its_meaning :
    (parse "3 + 4; -5 * 5" 100).diagnostics = [] ∧
      (tokenize (parse "3 + 4; -5 * 5" 100).program.render).length ≤ 100 ∧
      (parse (parse "3 + 4; -5 * 5" 100).program.render 100).diagnostics = [] ∧
      (parse (parse "3 + 4; -5 * 5" 100).program.render 100).program.same
        (parse "3 + 4; -5 * 5" 100).program = false := by
  decide +kernel

end PrattFrontEnd
