import PrattFrontEnd.Proofs.Scanning.Stepwise
import PrattFrontEnd.Proofs.Scanning.Tiling

/-!
Scanning cannot fail and cannot stand still. No character is read that has not been seen to be there,
whatever the text ends in the middle of; every call but those at the end of the text passes some of
it. Main statement: `scanning_never_fails`.
-/
namespace PrattFrontEnd

namespace Cursor

def calls : Nat → Cursor → Except ReadFault (List Token × Cursor)
  | 0, c => .ok ([], c)
  | n + 1, c =>
    match c.nextToken with
    | .error fault => .error fault
    | .ok (t, d) => (calls n d).map fun (ts, e) => (t :: ts, e)

/-- A call has answered the end token and left the cursor at the end of the text, where any number of
calls answer the same. -/
def Rests (t : Token) (d : Cursor) : Prop :=
  t.kind = .eof ∧ d.atEnd = true ∧ ∀ n, d.calls n = .ok (List.replicate n t, d)

/-- A call has answered a token that shows source text, and has moved the cursor behind it. -/
structure Advances (c : Cursor) (t : Token) (d : Cursor) : Prop where
  kind : t.kind ≠ .eof
  moves : c.position < d.position
  covers : t.lexeme.covered ≠ []
  shows : ∃ gap, c.source.drop c.position.toNat =
    gap ++ t.lexeme.covered ++ c.source.drop d.position.toNat

variable {c d : Cursor} {text : List Char}

theorem Sees.calls_at_end (sees : d.Sees []) (n : Nat) :
    d.calls n = .ok (List.replicate n (Token.endAt d.place), d) := by
  induction n with
  | zero => rfl
  | succ n ih =>
    obtain ⟨passed, reads, whole, _⟩ := sees.nextToken
    rw [(List.append_eq_nil_iff.1 whole.symm).1, move_nil] at reads
    rw [calls, reads, List.replicate_succ]
    simp only [ih]
    rfl

theorem Sees.answers (sees : c.Sees text) :
    ∃ t d rest, c.nextToken = .ok (t, d) ∧ d.Sees rest ∧ (Rests t d ∨ c.Advances t d) := by
  obtain ⟨passed, reads, whole, place⟩ := sees.nextToken
  have behind := sees.past whole
  refine ⟨_, _, _, reads, behind, ?_⟩
  obtain ⟨_, spent⟩ | ⟨gap, char, chars, split, _, _, _, read⟩ :=
    (⟨text, c.place⟩ : Scanner).next_cases
  · left
    rw [spent] at behind place ⊢
    refine ⟨rfl, behind.atEnd, fun n => ?_⟩
    rw [behind.calls_at_end, ← place]
  · right
    obtain ⟨more, covers⟩ := Lexeme.covered_read char chars
    have front := Lexeme.read_append char chars
    rw [read] at whole behind ⊢
    change text = gap ++ char :: chars at split
    rw [← front, ← List.append_assoc] at split
    -- What the call has passed is the layout and what the token covers, at least one character.
    have same : passed = gap ++ (Lexeme.read char chars).1.covered :=
      List.append_cancel_right (whole.symm.trans split)
    have some : (Lexeme.read char chars).1.covered ≠ [] := by
      rw [covers]
      exact List.cons_ne_nil _ _
    refine ⟨Lexeme.read_kind_ne_eof char chars, ?_, ?_, gap, ?_⟩
    · have length := List.length_pos_iff.2 some
      simp only [Cursor.move, same, List.length_append]
      omega
    · rwa [Lexeme.lexeme_toToken]
    · rw [sees.ahead, Lexeme.lexeme_toToken]
      exact split.trans (congrArg (_ ++ ·) behind.ahead.symm)

theorem Sees.calls (sees : c.Sees text) (n : Nat) :
    ∃ ts d rest, c.calls n = .ok (ts, d) ∧ d.Sees rest := by
  induction n generalizing c text with
  | zero => exact ⟨[], c, text, rfl, sees⟩
  | succ n ih =>
    obtain ⟨t, d, rest, reads, further, _⟩ := sees.answers
    obtain ⟨ts, e, last, called, beyond⟩ := ih further
    refine ⟨t :: ts, e, last, ?_, beyond⟩
    rw [Cursor.calls, reads]
    simp only [called]
    rfl

end Cursor

namespace Scanner

theorem tokens_bounded (s : Scanner) :
    ∃ ts last, s.tokens = ts ++ [last] ∧ (∀ t ∈ ts, t.kind ≠ .eof) ∧ last.kind = .eof ∧
      ts.length ≤ s.rest.length := by
  fun_induction tokens s with
  | case1 s =>
    rename_i result ended
    exact ⟨[], result.1, rfl, fun _ member => absurd member List.not_mem_nil, ended, Nat.zero_le _⟩
  | case2 s =>
    rename_i result more ih
    obtain ⟨ts, last, tokens, kinds, ended, bound⟩ := ih
    have used := next_length_lt more
    refine ⟨result.1 :: ts, last, congrArg (result.1 :: ·) tokens, ?_, ended, ?_⟩
    · rw [List.forall_mem_cons]
      exact ⟨more, kinds⟩
    · rw [List.length_cons]
      exact Nat.lt_of_le_of_lt bound used

end Scanner

/-- From any position that is not before the start of a text every call succeeds, after any number of
calls: it answers the end token at the end of the text, for ever, or a token with source text, and
moves on. So all tokens of a text are read, one for each character and one more at most, and exactly
the last of them is an end token. -/
theorem scanning_never_fails (source : String) :
    (∀ (position : Nat) (place : Place) (n : Nat), ∃ ts c t d,
      Cursor.calls n ⟨source.toList, position, place⟩ = .ok (ts, c) ∧ c.nextToken = .ok (t, d) ∧
        (Cursor.Rests t d ∨ c.Advances t d)) ∧
      ∃ ts last c, Cursor.allTokens ⟨source.toList, 0, ⟨1, 1⟩⟩ = .ok (tokenize source, c) ∧
        tokenize source = ts ++ [last] ∧ (∀ t ∈ ts, t.kind ≠ .eof) ∧ last.kind = .eof ∧
        (tokenize source).length ≤ source.length + 1 := by
  constructor
  · intro position place n
    have sees : (⟨source.toList, position, place⟩ : Cursor).Sees (source.toList.drop position) :=
      ⟨Int.natCast_nonneg position, rfl⟩
    obtain ⟨ts, c, rest, called, further⟩ := sees.calls n
    obtain ⟨t, d, _, reads, _, answer⟩ := further.answers
    exact ⟨ts, c, t, d, called, reads, answer⟩
  · have sees : (⟨source.toList, 0, ⟨1, 1⟩⟩ : Cursor).Sees source.toList := ⟨Int.le_refl 0, rfl⟩
    obtain ⟨ts, last, tokens, kinds, ended, bound⟩ := (Scanner.ofString source).tokens_bounded
    have whole : tokenize source = ts ++ [last] := tokens
    refine ⟨ts, last, _, sees.allTokens, whole, kinds, ended, ?_⟩
    rw [whole, List.length_append, List.length_singleton, ← String.length_toList]
    exact Nat.succ_le_succ bound

end PrattFrontEnd
