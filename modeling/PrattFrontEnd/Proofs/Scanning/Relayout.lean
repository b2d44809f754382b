import PrattFrontEnd.Proofs.Parser.Alongside
import PrattFrontEnd.Proofs.Scanning.Tiling

/-!
Layout does not matter. Two scanners over texts that show the same tokens take every step alike: each
lexeme is read again, whatever layout is around it, and what is left shows the same tokens again. So
the two deliver the same lexemes throughout, and nothing in a parser looks at the place of a token.
Main statement: `layout_is_irrelevant`.
-/
namespace PrattFrontEnd

namespace Layout

/-- Layout that is over before anything that follows: blanks, and comments with the line feed that
ends them. -/
inductive Padding : List Char → Prop where
  | nil : Padding []
  | blank {c : Char} {gap : List Char} (blank : isBlank c = true) (further : Padding gap) :
      Padding (c :: gap)
  | comment {body gap : List Char} (inside : '\n' ∉ body) (further : Padding gap) :
      Padding ('#' :: body ++ '\n' :: gap)

theorem divide_line {body : List Char} (inside : '\n' ∉ body) (text : List Char) :
    divide true (body ++ '\n' :: text) =
      (body ++ '\n' :: (divide false text).1, (divide false text).2) := by
  induction body with
  | nil => exact divide_feed true text
  | cons c cs ih =>
    rw [List.mem_cons, not_or] at inside
    rw [List.cons_append, divide_comment (Ne.symm inside.1), ih inside.2]
    rfl

theorem divide_padding {gap : List Char} (padding : Padding gap) (text : List Char) :
    divide false (gap ++ text) = (gap ++ (divide false text).1, (divide false text).2) := by
  induction padding with
  | nil => rfl
  | blank blank _ ih =>
    rw [List.cons_append, divide_blank blank, ih]
    rfl
  | comment inside _ ih =>
    rw [List.append_assoc, List.cons_append, List.cons_append, divide_hash, divide_line inside, ih]
    simp

theorem Padding.breaks {gap : List Char} (padding : Padding gap) (some : gap ≠ [])
    (text : List Char) : Breaks (gap ++ text) := by
  cases padding with
  | nil => exact absurd rfl some
  | blank blank _ => exact breaks_blank blank _
  | comment _ _ => exact breaks_cons rfl (by decide)

end Layout

def Lexeme.unterminated (l : Lexeme) : Bool := l.kind = .illegal && l.value.head? = some '"'

open Layout

/-- What may stand behind a token to show some more tokens: layout before each of them, and behind
the last one too unless that is a string that is never closed. -/
inductive Behind : Token → List Token → List Char → Prop where
  | done {t : Token} {gap : List Char} (layout : Padding gap)
      (tight : t.lexeme.unterminated = true → gap = []) : Behind t [] gap
  | token {t u : Token} {us : List Token} {gap rest : List Char} (layout : Padding gap)
      (some : gap ≠ []) (further : Behind u us rest) :
      Behind t (u :: us) (gap ++ u.lexeme.covered ++ rest)

/-- A text that shows some tokens, with layout as it likes in front of them. -/
inductive LaidOut : List Token → List Char → Prop where
  | empty {gap : List Char} (layout : Padding gap) : LaidOut [] gap
  | token {t : Token} {ts : List Token} {gap rest : List Char} (layout : Padding gap)
      (behind : Behind t ts rest) : LaidOut (t :: ts) (gap ++ t.lexeme.covered ++ rest)

namespace Behind

variable {t : Token} {ts : List Token} {rest : List Char}

theorem breaks (behind : Behind t ts rest) : Breaks rest := by
  cases behind with
  | done layout _ =>
    by_cases none : rest = []
    · rw [none]
      exact breaks_nil
    · rw [← List.append_nil rest]
      exact layout.breaks none []
  | token layout some _ =>
    rw [List.append_assoc]
    exact layout.breaks some _

theorem tight (behind : Behind t [] rest) (unterminated : t.lexeme.unterminated = true) :
    rest = [] := by
  cases behind with
  | done _ tight => exact tight unterminated

theorem laidOut (behind : Behind t ts rest) : LaidOut ts rest := by
  cases behind with
  | done layout _ => exact .empty layout
  | token layout _ further => exact .token layout further

end Behind

namespace Lexeme

theorem ofOperator?_of_unknown {c : Char} (unknown : starts c = false) (cs : List Char) :
    Kind.ofOperator? (c :: cs) = none := by
  cases known : Kind.ofOperator? (c :: cs) with
  | none => rfl
  | some k =>
    have member := Kind.mem_operators_of_ofOperator? known
    have front : k.name.toList.head? = some c := by
      rw [Kind.toList_name_of_ofOperator? known]
      rfl
    simp only [starts, Bool.or_eq_false_iff, List.any_eq_false, decide_eq_true_eq] at unknown
    exact absurd front (unknown.2 k member)

theorem read_unknown {c : Char} (unknown : starts c = false) (tail : List Char) :
    read c tail = (⟨.illegal, [c]⟩, tail) := by
  have unread : readOperator? (c :: tail) = none := by
    cases tail <;> simp only [readOperator?, ofOperator?_of_unknown unknown, Option.map_none]
  simp only [starts, Bool.or_eq_false_iff, decide_eq_false_iff_not] at unknown
  obtain ⟨⟨⟨⟨⟨word, digit⟩, quote⟩, _⟩, _⟩, _⟩ := unknown
  simp [read, word, digit, quote, unread]

theorem read_unclosed {body : List Char} (unclosed : bareQuote body = false) :
    read '"' body = (⟨.illegal, '"' :: body⟩, []) := by
  have never := (stringBody_eq_none_iff body).2 unclosed
  have other : startsWord '"' = false ∧ Text.isDigit '"' = false := by decide
  simp [read, readString, other, never]

theorem illegal_of_read {c : Char} {cs : List Char} (bare : isBlank c = false) (noComment : c ≠ '#')
    (illegal : (read c cs).1.kind = .illegal) :
    (∃ d, (read c cs).1 = ⟨.illegal, [d]⟩ ∧ starts d = false) ∨
      ∃ body, (read c cs).1 = ⟨.illegal, '"' :: body⟩ ∧ bareQuote body = false ∧
        (read c cs).2 = [] := by
  have fits : (read c cs).1.Fits [] (read c cs).2 :=
    fits_of_read bare noComment fun _ last => absurd last (Option.not_mem_none _)
  generalize read c cs = result at illegal fits ⊢
  obtain ⟨⟨kind, value⟩, rest⟩ := result
  cases illegal
  obtain ⟨d, rfl, unknown⟩ | ⟨body, rfl, unclosed, none⟩ := fits
  · exact .inl ⟨d, rfl, unknown⟩
  · exact .inr ⟨body, rfl, unclosed, none⟩

/-- What has been read, means something or not, is read again in front of layout; a string that is
never closed takes all that follows. -/
theorem read_again {c : Char} {cs tail : List Char} (bare : isBlank c = false) (noComment : c ≠ '#')
    (breaks : Breaks tail) (tight : (read c cs).1.unterminated = true → tail = []) :
    ∃ ds, (read c cs).1.covered ++ tail = c :: ds ∧ read c ds = ((read c cs).1, tail) := by
  obtain ⟨more, front⟩ := covered_read c cs
  refine ⟨more ++ tail, by rw [front, List.cons_append], ?_⟩
  by_cases legal : (read c cs).1.kind = .illegal
  · obtain ⟨d, same, unknown⟩ | ⟨body, same, unclosed, _⟩ := illegal_of_read bare noComment legal
    · rw [same] at front ⊢
      cases front
      exact read_unknown unknown tail
    · rw [same] at front tight ⊢
      cases front
      rw [tight rfl, List.append_nil]
      exact read_unclosed unclosed
  · obtain ⟨d, ds, same, again⟩ := read_back ⟨legal, c, cs, rfl⟩ (breaks.ends _)
    rw [front] at same
    cases same
    exact again

theorem rest_of_unterminated {c : Char} {cs : List Char} (bare : isBlank c = false)
    (noComment : c ≠ '#') (unterminated : (read c cs).1.unterminated = true) :
    (read c cs).2 = [] := by
  rw [Lexeme.unterminated, Bool.and_eq_true, decide_eq_true_eq, decide_eq_true_eq] at unterminated
  obtain ⟨illegal, quote⟩ := unterminated
  obtain ⟨d, same, unknown⟩ | ⟨body, _, _, none⟩ := illegal_of_read bare noComment illegal
  · rw [same] at quote
    cases quote
    exact absurd unknown (by decide)
  · exact none

end Lexeme

namespace Scanner

theorem next_padding {gap : List Char} (padding : Padding gap) (text : List Char) (place : Place) :
    (⟨gap ++ text, place⟩ : Scanner).next = (⟨text, place.past gap⟩ : Scanner).next := by
  simp only [next, divide_padding padding, Place.past_append]

theorem alike_step {s : Scanner} {text : List Char} (place : Place)
    (laid : LaidOut s.tokens.dropLast text) :
    (⟨text, place⟩ : Scanner).next.1.lexeme = s.next.1.lexeme ∧
      LaidOut s.next.2.tokens.dropLast (⟨text, place⟩ : Scanner).next.2.rest := by
  obtain ⟨_, ended⟩ | ⟨gap, c, cs, _, _, bare, noComment, read⟩ := s.next_cases
  · have none : s.tokens.dropLast = [] := by
      rw [tokens_of_ended (congrArg (·.1.kind) ended)]
      rfl
    rw [none] at laid
    cases laid with
    | empty layout =>
      rw [ended, tokens_of_spent rfl, ← List.append_nil text, next_padding layout]
      exact ⟨rfl, .empty .nil⟩
  · have same : s.next.1.lexeme = (Lexeme.read c cs).1 := by
      rw [read, Lexeme.lexeme_toToken]
    have rest : s.next.2.rest = (Lexeme.read c cs).2 := by rw [read]
    have more : s.next.1.kind ≠ .eof := by
      rw [read]
      exact Lexeme.read_kind_ne_eof c cs
    rw [tokens_of_more more, List.dropLast_cons_of_ne_nil (tokens_ne_nil _)] at laid
    cases laid with
    | @token _ _ gap tail layout behind =>
      have tight : (Lexeme.read c cs).1.unterminated = true → tail = [] := by
        intro unterminated
        rw [Lexeme.rest_of_unterminated bare noComment unterminated] at rest
        rw [tokens_of_spent rest] at behind
        exact behind.tight (same ▸ unterminated)
      obtain ⟨ds, front, again⟩ := Lexeme.read_again bare noComment behind.breaks tight
      rw [List.append_assoc, next_padding layout, same, front,
        next_lexeme bare noComment again, Lexeme.lexeme_toToken]
      exact ⟨rfl, behind.laidOut⟩

end Scanner

theorem Scanner.upcoming_alike {s : Scanner} {text : List Char} (place : Place)
    (laid : LaidOut s.tokens.dropLast text) :
    Likeness.shown.Throughout (Source.scanner ⟨text, place⟩).upcoming (Source.scanner s).upcoming := by
  intro n
  induction n generalizing s text place with
  | zero => exact (alike_step place laid).1
  | succ n ih =>
    rw [Source.upcoming_eq, (Source.scanner s).upcoming_eq, Stream'.get_succ_cons,
      Stream'.get_succ_cons]
    exact ih _ (alike_step place laid).2

/-- A text that shows the tokens of another one, with layout of its own, is parsed to the same program
with the same rendering, and the same is reported. -/
theorem layout_is_irrelevant {source other : String}
    (laid : LaidOut (tokenize source).dropLast other.toList) (maxDepth : Int) :
    (parse other maxDepth).program.same (parse source maxDepth).program = true ∧
      (parse other maxDepth).program.render = (parse source maxDepth).program.render ∧
      (parse other maxDepth).diagnostics = (parse source maxDepth).diagnostics := by
  have alike : Likeness.shown.Throughout (Parser.ofString other maxDepth).upcoming
      (Parser.ofString source maxDepth).upcoming := by
    rw [Parser.ofString, Parser.ofString, Parser.upcoming_onSource, Parser.upcoming_onSource]
    exact Scanner.upcoming_alike ⟨1, 1⟩ laid
  obtain ⟨statements, diagnostics⟩ := Parser.run_alike (Parser.kin_onSource _ _ maxDepth) alike
  obtain ⟨same, rendering⟩ := Program.shown_alike statements
  exact ⟨same, rendering, diagnostics⟩

/-- An operator in front of another one, a character that starts nothing, and a string that is never
closed. -/
theorem unclosed_string_relaid :
    (tokenize "a===§\"b").dropLast.map Token.text = ["a", "==", "=", "§", "\"b"] ∧
      (parse "\ta == =# c\n§ \"b" 100).program.same (parse "a===§\"b" 100).program = true ∧
      (parse "\ta == =# c\n§ \"b" 100).diagnostics = (parse "a===§\"b" 100).diagnostics := by
  have tokens : (tokenize "a===§\"b").dropLast =
      [⟨.identifier, "a", ⟨1, 1⟩⟩, ⟨.equal, "==", ⟨1, 2⟩⟩, ⟨.assign, "=", ⟨1, 4⟩⟩,
        ⟨.illegal, "§", ⟨1, 5⟩⟩, ⟨.illegal, "\"b", ⟨1, 6⟩⟩] := by
    decide +kernel
  have space : Padding [' '] := .blank rfl .nil
  have comment : Padding ['#', ' ', 'c', '\n'] := @Padding.comment [' ', 'c'] [] (by decide) .nil
  have laid : LaidOut (tokenize "a===§\"b").dropLast "\ta == =# c\n§ \"b".toList := by
    rw [tokens]
    exact @LaidOut.token _ _ ['\t'] _ (.blank rfl .nil)
      (@Behind.token _ _ _ [' '] _ space (by decide)
        (@Behind.token _ _ _ [' '] _ space (by decide)
          (@Behind.token _ _ _ ['#', ' ', 'c', '\n'] _ comment (by decide)
            (@Behind.token _ _ _ [' '] [] space (by decide) (.done .nil fun _ => rfl)))))
  obtain ⟨same, _, diagnostics⟩ := layout_is_irrelevant laid 100
  exact ⟨by rw [tokens]; rfl, same, diagnostics⟩

end PrattFrontEnd
