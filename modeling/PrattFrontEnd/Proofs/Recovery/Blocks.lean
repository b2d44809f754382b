import PrattFrontEnd.Listing
import PrattFrontEnd.Proofs.Recovery.Settling
import PrattFrontEnd.Syntax.Render

/-!
Where blocks end. In a balanced list of tokens a block ends at the brace that closes it, whatever
else is wrong with the tokens, as long as no expression was wanted at a closing brace; recovery skips
that brace and the block runs on behind it. Main statement: `block_ends_at_own_brace_iff`.
-/
namespace PrattFrontEnd

open PrattFrontEnd.Parser Expression Statement

theorem block_ends_iff {p : Parser} {opened close : Token} {inside after : List Token}
    (levels : Nat) (ready : p.Ready) (opens : opened.kind = .leftBrace)
    (closing : Closing (opened :: inside ++ close :: after))
    (on : p.On (opened :: inside ++ close :: after))
    (above : Above (surplus (close :: after)) (inside ++ close :: after) (close :: after))
    (level : surplus (inside ++ close :: after) = surplus (close :: after))
    (below : surplus after < surplus (close :: after)) :
    (block (within levels) p).2.On (close :: after) ↔
      (block (within levels) p).2.strandings = p.strandings := by
  have positive : 0 < surplus (close :: after) := by
    have nonneg := closing.surplus
    rw [List.cons_append, surplus_cons, opens, show Kind.closing .leftBrace = -1 from rfl] at nonneg
    omega
  obtain ⟨_, us, last, _, ends, fares⟩ :=
    settles_block (lands_within levels) ready closing on (by rw [on.1, opens])
  rw [List.cons_append, List.tail_cons] at fares
  constructor
  · intro own
    have same := on_unique last own
    cases fares with
    | kept same _ _ => exact same
    | sunk _ lower =>
      rcases lower with none | lower
      · rw [none] at same
        cases same
      · rw [same] at lower
        omega
  · intro unchanged
    cases fares with
    | sunk more _ => omega
    | kept _ height path =>
      cases us with
      | nil =>
        rw [surplus_nil] at height
        omega
      | cons u us =>
        have brace := closing_of_endsBlock last ends
        have lower : surplus us < surplus (close :: after) := by
          rw [surplus_cons, brace, show Kind.closing .rightBrace = 1 from rfl] at height
          omega
        rw [level] at path
        rw [closing_unique above path below lower]
        exact last

/-- A block that is entered on its opening brace, in a balanced list of tokens, ends on the brace
that closes it exactly when no expression is wanted at a closing brace meanwhile. -/
theorem block_ends_at_own_brace_iff (tokens : List Token) (noEnd : ∀ t ∈ tokens, t.kind ≠ .eof)
    (balanced : Balanced tokens) (maxDepth : Int) (levels : Nat) (p : Parser)
    (entered : (ofList tokens maxDepth).Reaches { p with depth := 0 })
    (opens : p.current.kind = .leftBrace) :
    ∃ before inside close after, tokens = before ++ p.current :: inside ++ close :: after ∧
      p.On (p.current :: inside ++ close :: after) ∧ Balanced inside ∧
      close.kind = .rightBrace ∧
      ((block (within levels) p).2.On (close :: after) ↔
        (block (within levels) p).2.strandings = p.strandings) := by
  have ready : p.Ready := ((ready_onSource _ maxDepth).of_reaches entered).at_depth p.depth
  obtain ⟨rest, ⟨before, split⟩, here⟩ := entered.on (on_ofList maxDepth noEnd)
  have on : p.On rest := here
  have closing : Closing rest := balanced.closing.of_suffix ⟨before, split⟩
  obtain ⟨tail, rfl, _⟩ := on_split on (by rw [opens]; decide)
  have nonneg := closing.surplus
  rw [surplus_cons, opens, show Kind.closing .leftBrace = -1 from rfl] at nonneg
  obtain ⟨inside, close, after, rfl, brace, below, above⟩ :=
    closing_exists (surplus tail) (by omega) (Int.le_refl _)
  have level : surplus (close :: after) = surplus (inside ++ close :: after) := by
    rw [surplus_cons, brace, show Kind.closing .rightBrace = 1 from rfl]
    omega
  refine ⟨before, inside, close, after, ?_, on, balanced_inside above rfl level, brace, ?_⟩
  · rw [← split, List.append_assoc]
    rfl
  · rw [← level] at above
    exact block_ends_iff levels ready opens closing on above level.symm (by omega)

/-- On the block of `fn() { return } ; let y = 1;`, whose brace stands where a value is wanted. -/
def onBlockWithoutValue : Parser :=
  (ofList (tokenize "fn() \x7b return \x7d ; let y = 1;").dropLast 100).advance.advance.advance

/-- That block goes past its brace, and what is written behind it becomes a part of it. -/
theorem block_without_value_misses_its_brace :
    (∃ inside close after,
      onBlockWithoutValue.On (onBlockWithoutValue.current :: inside ++ close :: after) ∧
        Balanced inside ∧ close.kind = .rightBrace ∧
        ¬ (block (within 99) onBlockWithoutValue).2.On (close :: after)) ∧
      (parse "fn() \x7b return \x7d ; let y = 1;" 100).program.render =
        "fn() \x7b let y = 1; \x7d" := by
  obtain ⟨_, inside, close, after, _, on, balanced, brace, ends⟩ :=
    block_ends_at_own_brace_iff (tokenize "fn() \x7b return \x7d ; let y = 1;").dropLast
      (by decide +kernel) (by decide +kernel) 100 99 onBlockWithoutValue
      (.advance (.advance (.advance .refl))) (by decide +kernel)
  refine ⟨⟨inside, close, after, on, balanced, brace, ?_⟩, by decide +kernel⟩
  intro own
  exact absurd (ends.1 own) (by decide +kernel)

end PrattFrontEnd
