import PrattFrontEnd.Proofs.Scanning.Tiling

/-!
Where tokens stand. The scanner moves its place on character by character; the place of a token is
also what counting in the text before it gives, whatever was passed there: blanks, comments, or line
feeds inside of strings. Main statement: `tokens_stand_where_they_start`.
-/
namespace PrattFrontEnd

namespace Place

def behind (text : List Char) : Place :=
  ⟨1 + text.count '\n', 1 + (text.reverse.takeWhile (· ≠ '\n')).length⟩

def Before (p q : Place) : Prop :=
  p.line < q.line ∨ p.line = q.line ∧ p.column < q.column

theorem behind_concat (text : List Char) (c : Char) :
    behind (text ++ [c]) = (behind text).step c := by
  unfold behind step
  rw [List.count_append, List.reverse_concat, List.takeWhile_cons]
  by_cases feed : c = '\n'
  · rw [if_pos feed, if_neg (by simp [feed]), feed, List.count_singleton_self, List.length_nil]
    simp only [Nat.cast_add, Nat.cast_one, Nat.cast_zero, Int.add_zero, Int.add_assoc]
  · rw [if_neg feed, if_pos (by simp [feed]), List.count_singleton, if_neg (by simp [feed]),
      List.length_cons]
    simp only [Nat.cast_add, Nat.cast_one, Nat.add_zero, Int.add_assoc]

theorem past_behind (before text : List Char) :
    (behind before).past text = behind (before ++ text) := by
  induction text generalizing before with
  | nil => rw [past_nil, List.append_nil]
  | cons c text ih => rw [past_cons, ← behind_concat, ih, ← List.append_cons]

theorem Before.trans {p q r : Place} (first : p.Before q) (second : q.Before r) : p.Before r := by
  unfold Before at first second ⊢
  omega

theorem before_step (p : Place) (c : Char) : p.Before (p.step c) := by
  unfold Before step
  split
  · left
    exact Int.lt_succ p.line
  · right
    exact ⟨rfl, Int.lt_succ p.column⟩

theorem before_past (p : Place) (c : Char) (text : List Char) : p.Before (p.past (c :: text)) := by
  induction text generalizing p c with
  | nil => exact p.before_step c
  | cons d text ih => exact (p.before_step c).trans (ih (p.step c) d)

end Place

/-- A text behind another one is read as tokens that have the places of their first characters, with
layout between them, and an end token that has the place behind the whole text. -/
inductive Stands : List Char → List Char → List Token → Prop where
  | done {before gap : List Char} (layout : Layout.Gap gap []) :
      Stands before gap [Token.endAt (Place.behind (before ++ gap))]
  | token {before gap cs rest : List Char} {c : Char} {t : Token} {ts : List Token}
      (layout : Layout.Gap gap (c :: cs ++ rest)) (bare : Layout.isBlank c = false ∧ c ≠ '#')
      (covers : t.lexeme.covered = c :: cs) (more : t.kind ≠ .eof)
      (stands : t.place = Place.behind (before ++ gap))
      (further : Stands (before ++ gap ++ c :: cs) rest ts) :
      Stands before (gap ++ (c :: cs ++ rest)) (t :: ts)

theorem Stands.place {before text : List Char} {ts : List Token} (stands : Stands before text ts) :
    ∀ t ∈ ts, ∃ passed, t.place = Place.behind (before ++ passed) := by
  induction stands with
  | @done before gap layout =>
    rw [List.forall_mem_singleton]
    exact ⟨gap, rfl⟩
  | @token before gap cs rest c t ts _ _ _ _ here _ ih =>
    rw [List.forall_mem_cons]
    refine ⟨⟨gap, here⟩, fun u member => ?_⟩
    obtain ⟨passed, there⟩ := ih u member
    exact ⟨gap ++ c :: cs ++ passed, by simpa using there⟩

theorem Stands.increasing {before text : List Char} {ts : List Token}
    (stands : Stands before text ts) : (ts.map Token.place).Pairwise Place.Before := by
  induction stands with
  | done => exact List.pairwise_singleton _ _
  | @token before gap cs rest c t ts _ _ _ _ here further ih =>
    rw [List.map_cons, List.pairwise_cons]
    refine ⟨?_, ih⟩
    intro place member
    obtain ⟨u, among, same⟩ := List.mem_map.1 member
    obtain ⟨passed, there⟩ := further.place u among
    rw [← same, here, there, List.append_assoc, List.cons_append,
      ← Place.past_behind (before ++ gap)]
    exact Place.before_past _ c (cs ++ passed)

namespace Scanner

theorem stands (s : Scanner) {before : List Char} (here : s.place = Place.behind before) :
    Stands before s.rest s.tokens := by
  fun_induction tokens s generalizing before with
  | case1 s =>
    rename_i result ended
    obtain ⟨layout, same⟩ | ⟨gap, c, cs, _, _, _, _, same⟩ := s.next_cases
    · change result = _ at same
      rw [same, here, Place.past_behind]
      exact .done layout
    · exact absurd ((congrArg (·.1.kind) same).symm.trans ended) (Lexeme.read_kind_ne_eof c cs)
  | case2 s =>
    rename_i result more ih
    obtain ⟨_, ended⟩ | ⟨gap, c, cs, whole, layout, bare, noComment, same⟩ := s.next_cases
    · exact absurd (congrArg (·.1.kind) ended) more
    change result = _ at same
    obtain ⟨ds, covers⟩ := Lexeme.covered_read c cs
    have front := Lexeme.read_append c cs
    rw [here, Place.past_behind, covers, Place.past_behind] at same
    rw [covers] at front
    rw [← front] at layout
    rw [whole, ← front]
    clear_value result
    subst same
    exact .token layout ⟨bare, noComment⟩ (by rw [Lexeme.lexeme_toToken, covers]) more rfl (ih rfl)

end Scanner

/-- Every token of a source text has the line and the column of its first character, and the end
token those of the end of the text; so along the tokens places only grow. -/
theorem tokens_stand_where_they_start (source : String) :
    Stands [] source.toList (tokenize source) ∧
      ((tokenize source).map Token.place).Pairwise Place.Before :=
  have stands := @Scanner.stands (Scanner.ofString source) [] rfl
  ⟨stands, stands.increasing⟩

end PrattFrontEnd
