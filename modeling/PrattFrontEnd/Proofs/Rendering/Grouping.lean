import PrattFrontEnd.Proofs.Grammar.Completeness

/-!
Parentheses in what can be derived. The tokens of a phrase close the parentheses they open, and every
`if` among them is followed by a group in parentheses and the brace of a block. Main statement:
`guarded_of_derivesFrom`.
-/
namespace PrattFrontEnd

def pastGroup : Nat → List Kind → List Kind
  | _, [] => []
  | depth, .leftParen :: ks => pastGroup (depth + 1) ks
  | 0, .rightParen :: ks => ks
  | depth + 1, .rightParen :: ks => pastGroup depth ks
  | depth, _ :: ks => pastGroup depth ks

theorem pastGroup_plain {k : Kind} (left : k ≠ .leftParen) (right : k ≠ .rightParen) (depth : Nat)
    (ks : List Kind) : pastGroup depth (k :: ks) = pastGroup depth ks := by
  rw [pastGroup]
  · exact left
  · intro _ same
    exact absurd same right
  · intro _ _ same
    exact absurd same right

/-- Closing every parenthesis it opens, and no other. -/
def Grouped (ks : List Kind) : Prop :=
  ∀ depth rest, pastGroup depth (ks ++ rest) = pastGroup depth rest

namespace Grouped

variable {ks ls : List Kind} {k : Kind}

theorem nil : Grouped [] := fun _ _ => rfl

theorem append (first : Grouped ks) (second : Grouped ls) : Grouped (ks ++ ls) := by
  intro depth rest
  rw [List.append_assoc, first, second]

theorem cons (plain : k ∉ [.leftParen, .rightParen]) (further : Grouped ks) :
    Grouped (k :: ks) := by
  simp only [List.mem_cons, List.not_mem_nil, or_false, not_or] at plain
  intro depth rest
  rw [List.cons_append, pastGroup_plain plain.1 plain.2, further]

theorem parens (inside : Grouped ks) (behind : Grouped ls) :
    Grouped (.leftParen :: (ks ++ .rightParen :: ls)) := by
  intro depth rest
  rw [List.cons_append, pastGroup, List.append_assoc, inside, List.cons_append, pastGroup, behind]

end Grouped

/-- Every `if` is followed by a group in parentheses and an opening brace. -/
def Guarded (ks : List Kind) : Prop :=
  ∀ before after, ks = before ++ .ifWord :: after →
    ∃ inside rest, Grouped inside ∧
      after = .leftParen :: (inside ++ .rightParen :: .leftBrace :: rest)

namespace Guarded

variable {ks ls : List Kind} {k : Kind}

theorem nil : Guarded [] := by
  intro before after split
  simp at split

theorem append (first : Guarded ks) (second : Guarded ls) : Guarded (ks ++ ls) := by
  intro before after split
  rcases List.append_eq_append_iff.1 split with ⟨more, rfl, behind⟩ | ⟨more, rfl, behind⟩
  · exact second more after behind
  · cases more with
    | nil => exact second [] after behind.symm
    | cons l more =>
      cases behind
      obtain ⟨inside, rest, grouped, rfl⟩ := first before more rfl
      exact ⟨inside, rest ++ ls, grouped, by simp⟩

theorem cons (plain : k ≠ .ifWord) (further : Guarded ks) : Guarded (k :: ks) := by
  intro before after split
  cases before with
  | nil => exact absurd (List.cons.inj split).1 plain
  | cons l before => exact further before after (List.cons.inj split).2

theorem conditional (inside : Guarded ks) (grouped : Grouped ks)
    (behind : Guarded (.leftBrace :: ls)) :
    Guarded (.ifWord :: .leftParen :: (ks ++ .rightParen :: .leftBrace :: ls)) := by
  intro before after split
  cases before with
  | nil => exact ⟨ks, ls, grouped, (List.cons.inj split).2.symm⟩
  | cons l before =>
    have others : Guarded (.leftParen :: (ks ++ .rightParen :: .leftBrace :: ls)) :=
      cons (by decide) (append inside (cons (by decide) behind))
    exact others before after (List.cons.inj split).2

end Guarded

/-- What the tokens of any phrase are like. -/
structure Paired (ks : List Kind) : Prop where
  grouped : Grouped ks
  guarded : Guarded ks

namespace Paired

variable {ks ls : List Kind} {k : Kind}

theorem nil : Paired [] := ⟨.nil, .nil⟩

theorem append (first : Paired ks) (second : Paired ls) : Paired (ks ++ ls) :=
  ⟨first.grouped.append second.grouped, first.guarded.append second.guarded⟩

theorem cons (plain : k ∉ [.leftParen, .rightParen, .ifWord]) (further : Paired ks) :
    Paired (k :: ks) := by
  have word : k ≠ .ifWord := by
    rintro rfl
    exact plain (by decide)
  have others : k ∉ [.leftParen, .rightParen] := by
    intro member
    exact plain (List.mem_of_mem_take (i := 2) member)
  exact ⟨further.grouped.cons others, further.guarded.cons word⟩

theorem parens (inside : Paired ks) (behind : Paired ls) :
    Paired (.leftParen :: (ks ++ .rightParen :: ls)) := by
  have guarded := inside.guarded.append (behind.guarded.cons (k := .rightParen) (by decide))
  exact ⟨inside.grouped.parens behind.grouped, guarded.cons (by decide)⟩

theorem conditional (inside : Paired ks) (behind : Paired (.leftBrace :: ls)) :
    Paired (.ifWord :: .leftParen :: (ks ++ .rightParen :: .leftBrace :: ls)) := by
  have grouped := inside.grouped.parens behind.grouped
  exact ⟨grouped.cons (by decide),
    .conditional inside.guarded inside.grouped behind.guarded⟩

end Paired

def kinds (ts : List Token) : List Kind := ts.map Token.kind

@[simp] theorem kinds_nil : kinds [] = [] := rfl

@[simp] theorem kinds_cons (t : Token) (ts : List Token) : kinds (t :: ts) = t.kind :: kinds ts :=
  rfl

@[simp] theorem kinds_append (ts us : List Token) : kinds (ts ++ us) = kinds ts ++ kinds us :=
  List.map_append

theorem Kind.plain_of_operatorLevel? {k : Kind} {l : Level} (known : k.operatorLevel? = some l) :
    k ∉ [.leftParen, .rightParen, .ifWord] := by
  cases k <;> cases known <;> decide

def Across (ts rest : List Token) : Prop := ∃ used, ts = used ++ rest ∧ Paired (kinds used)

namespace Across

variable {ts mid rest : List Token} {t opened closed : Token}

theorem refl (ts : List Token) : Across ts ts := ⟨[], rfl, .nil⟩

theorem trans (first : Across ts mid) (second : Across mid rest) : Across ts rest := by
  obtain ⟨us, rfl, paired⟩ := first
  obtain ⟨vs, rfl, pairedToo⟩ := second
  refine ⟨us ++ vs, (List.append_assoc us vs rest).symm, ?_⟩
  rw [kinds_append]
  exact paired.append pairedToo

theorem token (plain : t.kind ∉ [.leftParen, .rightParen, .ifWord]) (further : Across ts rest) :
    Across (t :: ts) rest := by
  obtain ⟨us, rfl, paired⟩ := further
  exact ⟨t :: us, rfl, paired.cons plain⟩

theorem parens (opens : opened.kind = .leftParen) (closes : closed.kind = .rightParen)
    (inside : Across ts (closed :: mid)) (behind : Across mid rest) :
    Across (opened :: ts) rest := by
  obtain ⟨us, rfl, paired⟩ := inside
  obtain ⟨vs, rfl, pairedToo⟩ := behind
  refine ⟨opened :: (us ++ closed :: vs), by simp, ?_⟩
  rw [kinds_cons, kinds_append, kinds_cons, opens, closes]
  exact paired.parens pairedToo

theorem conditional {word brace : Token} (kind : word.kind = .ifWord)
    (opens : opened.kind = .leftParen) (closes : closed.kind = .rightParen)
    (braced : brace.kind = .leftBrace) (inside : Across ts (closed :: brace :: mid))
    (behind : Across mid rest) : Across (word :: opened :: ts) rest := by
  obtain ⟨us, rfl, paired⟩ := inside
  obtain ⟨vs, rfl, pairedToo⟩ := behind
  refine ⟨word :: opened :: (us ++ closed :: brace :: vs), by simp, ?_⟩
  rw [kinds_cons, kinds_cons, kinds_append, kinds_cons, kinds_cons, kind, opens, closes, braced]
  exact paired.conditional (pairedToo.cons (by decide))

theorem ended (ended : Ended mid rest) : Across mid rest := by
  rcases ended with ⟨semicolon, kind, rfl⟩ | ⟨rfl, _⟩
  · exact .token (by rw [kind]; decide) (.refl _)
  · exact .refl _

end Across

def Phrase.Pairs (phrase : Phrase) (ts rest : List Token) : Prop :=
  match phrase with
  | .block _ => ∃ brace inside, ts = brace :: inside ∧ brace.kind = .leftBrace ∧ Across inside rest
  | _ => Across ts rest

theorem Derivation.pairs {phrase : Phrase} {ts rest : List Token} (d : Derivation phrase ts rest) :
    phrase.Pairs ts rest := by
  induction d with
  | tighter _ _ inner => exact inner
  | binary _ known _ _ _ left right =>
    exact Across.trans left (.token (Kind.plain_of_operatorLevel? known) right)
  | unary _ known _ operand =>
    refine Across.token ?_ operand
    rcases known with kind | kind <;> rw [kind] <;> decide
  | call _ _ opens closes _ _ callee arguments =>
    exact Across.trans callee (.parens opens closes arguments (.refl _))
  | index _ _ opens closes _ _ collection position =>
    have behind := Across.trans position (.token (by rw [closes]; decide) (.refl _))
    exact Across.trans collection (.token (by rw [opens]; decide) behind)
  | name _ kind => exact .token (by rw [kind]; decide) (.refl _)
  | integer _ kind _ _ => exact .token (by rw [kind]; decide) (.refl _)
  | string _ kind => exact .token (by rw [kind]; decide) (.refl _)
  | yes _ kind => exact .token (by rw [kind]; decide) (.refl _)
  | no _ kind => exact .token (by rw [kind]; decide) (.refl _)
  | group _ _ opens closes _ inner => exact .parens opens closes inner (.refl _)
  | array _ _ opens closes _ elements =>
    have behind := Across.trans elements (.token (by rw [closes]; decide) (.refl _))
    exact .token (by rw [opens]; decide) behind
  | conditional _ _ _ kind opens closes _ _ condition consequence =>
    obtain ⟨brace, inside, rfl, braced, behind⟩ := consequence
    exact .conditional kind opens closes braced condition behind
  | alternative _ _ _ _ kind opens closes otherwise _ _ _ condition consequence other =>
    obtain ⟨brace, inside, rfl, braced, between⟩ := consequence
    obtain ⟨braceToo, insideToo, rfl, bracedToo, behind⟩ := other
    have last := Across.token (by rw [bracedToo]; decide) behind
    exact .conditional kind opens closes braced condition
      (between.trans (.token (by rw [otherwise]; decide) last))
  | function _ _ _ kind opens closes _ _ parameters body =>
    obtain ⟨brace, inside, rfl, braced, behind⟩ := body
    have last := Across.token (by rw [braced]; decide) behind
    exact .token (by rw [kind]; decide) (.parens opens closes parameters last)
  | noItems => exact .refl _
  | items _ _ first further => exact Across.trans first further
  | lastItem => exact .refl _
  | nextItem _ kind _ _ next further =>
    exact .token (by rw [kind]; decide) (Across.trans next further)
  | noNames => exact .refl _
  | names _ kind _ further => exact .token (by rw [kind]; decide) further
  | lastName => exact .refl _
  | nextName _ _ separates kind _ further =>
    exact .token (by rw [separates]; decide) (.token (by rw [kind]; decide) further)
  | closed opened closed opens closes _ inside =>
    exact ⟨_, _, rfl, opens, Across.trans inside (.token (by rw [closes]; decide) (.refl _))⟩
  | unclosed opened opens _ inside => exact ⟨_, _, rfl, opens, inside⟩
  | binding _ _ _ kind named assigns _ ended value =>
    have behind := Across.trans value (.ended ended)
    exact .token (by rw [kind]; decide)
      (.token (by rw [named]; decide) (.token (by rw [assigns]; decide) behind))
  | result _ kind _ ended value =>
    exact .token (by rw [kind]; decide) (Across.trans value (.ended ended))
  | expression _ ended value => exact Across.trans value (.ended ended)
  | noStmts => exact .refl _
  | stmts _ _ first further => exact Across.trans first further

theorem guarded_of_derivesFrom {program : Program} {ts : List Token}
    (derives : program.DerivesFrom ts) : Guarded (kinds ts) := by
  obtain ⟨d⟩ := derives
  obtain ⟨used, whole, paired⟩ := d.pairs
  rw [List.append_nil] at whole
  rw [whole]
  exact paired.guarded

end PrattFrontEnd
