import PrattFrontEnd.Proofs.Parser.Reading

/-!
The tokens of a source text tile it: with layout between them they make up the whole text, and each
one reaches as far as it can. That a number reaches as far back as it can is what needs an invariant:
between two tokens the text is never cut in the middle of a row of digits. Main statement:
`tokens_tile_source`.
-/
namespace PrattFrontEnd

namespace Layout

/-- Blanks, and comments that reach up to a line feed or the end of the text, in front of a rest. -/
inductive Gap : List Char → List Char → Prop where
  | nil {rest : List Char} : Gap [] rest
  | blank {c : Char} {gap rest : List Char} (blank : isBlank c = true) (further : Gap gap rest) :
      Gap (c :: gap) rest
  | comment {body gap rest : List Char} (inside : '\n' ∉ body)
      (ends : ∀ c ∈ (gap ++ rest).head?, c = '\n') (further : Gap gap rest) :
      Gap ('#' :: body ++ gap) rest

theorem gap_of_divide (text : List Char) :
    Gap (divide false text).1 (divide false text).2 ∧
      ∃ body gap, (divide true text).1 = body ++ gap ∧ '\n' ∉ body ∧
        (∀ c ∈ (gap ++ (divide true text).2).head?, c = '\n') ∧ Gap gap (divide true text).2 := by
  induction text with
  | nil => exact ⟨.nil, [], [], rfl, by simp, by simp [divide], .nil⟩
  | cons c cs ih =>
    obtain ⟨outside, body, gap, whole, inside, ends, further⟩ := ih
    constructor
    · by_cases hash : c = '#'
      · rw [hash, divide_hash, whole]
        exact .comment inside ends further
      · cases blank : isBlank c with
        | true =>
          rw [divide_blank blank]
          exact .blank blank outside
        | false =>
          rw [divide_bare blank hash]
          exact .nil
    · by_cases feed : c = '\n'
      · rw [feed, divide_feed]
        refine ⟨[], '\n' :: (divide false cs).1, rfl, List.not_mem_nil, ?_, .blank rfl outside⟩
        intro d front
        cases front
        rfl
      · rw [divide_comment feed, whole]
        refine ⟨c :: body, gap, rfl, ?_, ends, further⟩
        rw [List.mem_cons, not_or]
        exact ⟨fun same => feed same.symm, inside⟩

theorem bare_of_divide {inComment : Bool} {text cs : List Char} {c : Char}
    (rest : (divide inComment text).2 = c :: cs) : isBlank c = false ∧ c ≠ '#' := by
  induction text generalizing inComment with
  | nil => cases rest
  | cons d ds ih =>
    unfold divide at rest
    split at rest
    · exact ih rest
    · rename_i bare
      cases rest
      simp only [Bool.or_eq_true, decide_eq_true_eq, not_or, Bool.not_eq_true] at bare
      exact ⟨bare.1.2, bare.2⟩

end Layout

namespace Lexeme

/-- Whether the inside of a string has a quote that no backslash protects. -/
def bareQuote : List Char → Bool
  | [] => false
  | '"' :: _ => true
  | ['\\'] => false
  | '\\' :: _ :: rest => bareQuote rest
  | _ :: rest => bareQuote rest

def bareBackslash : List Char → Bool
  | [] => false
  | ['\\'] => true
  | '\\' :: _ :: rest => bareBackslash rest
  | _ :: rest => bareBackslash rest

def starts (c : Char) : Bool :=
  startsWord c || Text.isDigit c || c = '"' || c = '#' || Layout.isBlank c ||
    Kind.operators.any fun k => k.name.toList.head? = some c

structure Wordlike (l : Lexeme) : Prop where
  front : ∃ c ∈ l.value.head?, startsWord c = true
  all : ∀ c ∈ l.value, continuesWord c = true
  kind : l.kind = Kind.ofWord (String.ofList l.value)
  keyword : l.kind ≠ .identifier ↔ String.ofList l.value ∈ keywords

/-- What a lexeme looks like in a text, given what stands before it and behind it. -/
def Fits (l : Lexeme) (before rest : List Char) : Prop :=
  match l.kind with
  | .identifier | .functionWord | .letWord | .trueWord | .falseWord | .ifWord | .elseWord
  | .returnWord => l.Wordlike ∧ ∀ c ∈ rest.head?, continuesWord c = false
  | .integer =>
    l.value ≠ [] ∧ (∀ c ∈ l.value, Text.isDigit c = true) ∧
      (∀ c ∈ before.getLast?, Text.isDigit c = false) ∧
      ∀ c ∈ rest.head?, Text.isDigit c = false
  | .string => bareQuote l.value = false ∧ bareBackslash l.value = false
  | .illegal =>
    (∃ c, l.value = [c] ∧ starts c = false) ∨
      ∃ body, l.value = '"' :: body ∧ bareQuote body = false ∧ rest = []
  | .assign | .bang => l.value = l.kind.name.toList ∧ ∀ c ∈ rest.head?, c ≠ '='
  | .eof | .other _ => False
  | _ => l.value = l.kind.name.toList

end Lexeme

/-- A text behind another one is made up of tokens that fit in, with layout before, between and
behind them. -/
inductive Tiles : List Char → List Char → List Token → Prop where
  | done {before gap : List Char} (layout : Layout.Gap gap []) : Tiles before gap []
  | token {before gap rest : List Char} {t : Token} {ts : List Token}
      (layout : Layout.Gap gap (t.lexeme.covered ++ rest))
      (fits : t.lexeme.Fits (before ++ gap) rest)
      (further : Tiles (before ++ gap ++ t.lexeme.covered) rest ts) :
      Tiles before (gap ++ t.lexeme.covered ++ rest) (t :: ts)

namespace Lexeme

theorem bareQuote_plain {c : Char} (quote : c ≠ '"') (plain : c ≠ '\\') (cs : List Char) :
    bareQuote (c :: cs) = bareQuote cs := by
  rw [bareQuote]
  · exact quote
  · exact fun same => absurd same plain
  · exact fun _ _ same => absurd same plain

theorem bareBackslash_plain {c : Char} (plain : c ≠ '\\') (cs : List Char) :
    bareBackslash (c :: cs) = bareBackslash cs := by
  rw [bareBackslash]
  · exact fun same => absurd same plain
  · exact fun _ _ same => absurd same plain

theorem inside_of_stringBody {text body rest : List Char}
    (closed : stringBody text = some (body, rest)) :
    bareQuote body = false ∧ bareBackslash body = false := by
  fun_induction stringBody text generalizing body rest with
  | case1 => cases closed
  | case2 =>
    cases closed
    exact ⟨rfl, rfl⟩
  | case3 => cases closed
  | case4 c text ih =>
    obtain ⟨⟨b, r⟩, inner, same⟩ := Option.map_eq_some_iff.1 closed
    cases same
    rw [bareQuote, bareBackslash]
    exact ih inner
  | case5 c text quote alone paired ih =>
    obtain ⟨⟨b, r⟩, inner, same⟩ := Option.map_eq_some_iff.1 closed
    cases same
    have plain := plain_of_unpaired alone paired
    rw [bareQuote_plain quote plain, bareBackslash_plain plain]
    exact ih inner

theorem stringBody_eq_none_iff (text : List Char) :
    stringBody text = none ↔ bareQuote text = false := by
  fun_induction stringBody text with
  | case1 | case2 | case3 => simp [bareQuote]
  | case4 c text ih =>
    rw [bareQuote, ← ih]
    exact Option.map_eq_none_iff
  | case5 c text quote alone paired ih =>
    rw [bareQuote_plain quote (plain_of_unpaired alone paired), ← ih]
    exact Option.map_eq_none_iff

theorem ofWord_ne_identifier_iff (text : String) :
    Kind.ofWord text ≠ .identifier ↔ text ∈ keywords := by
  unfold Kind.ofWord
  split <;> simp_all [keywords]

theorem extendedBy_of_double {c d : Char} {k : Kind} (double : Kind.ofOperator? [c, d] = some k)
    (e : Char) : extendedBy ⟨k, [c, d]⟩ e = false := by
  have spelling := Kind.toList_name_of_ofOperator? double
  have member := Kind.mem_operators_of_ofOperator? double
  cases k with
  | assign | bang => cases spelling
  | identifier | functionWord | letWord | trueWord | falseWord | ifWord | elseWord | returnWord
  | integer => exact absurd member (by decide)
  | _ => rfl

theorem extendedBy_of_single {c d : Char} {k : Kind} (known : Kind.ofOperator? [c] = some k)
    (single : Kind.ofOperator? [c, d] = none) : extendedBy ⟨k, [c]⟩ d = false := by
  have spelling := Kind.toList_name_of_ofOperator? known
  have member := Kind.mem_operators_of_ofOperator? known
  cases k with
  | assign | bang =>
    cases spelling
    apply decide_eq_false
    rintro rfl
    cases single
  | identifier | functionWord | letWord | trueWord | falseWord | ifWord | elseWord | returnWord
  | integer => exact absurd member (by decide)
  | _ => rfl

theorem ends_of_readOperator? {text rest : List Char} {l : Lexeme}
    (found : readOperator? text = some (l, rest)) : l.EndsBefore rest := by
  unfold readOperator? at found
  split at found
  · cases found
  · obtain ⟨k, known, same⟩ := Option.map_eq_some_iff.1 found
    cases same
    intro e front
    cases front
  · split at found
    · rename_i double
      cases found
      exact fun e _ => extendedBy_of_double double e
    · rename_i single
      obtain ⟨k, known, same⟩ := Option.map_eq_some_iff.1 found
      cases same
      intro e front
      cases front
      exact extendedBy_of_single known single

theorem stops_dropWhile {p : Char → Bool} (text : List Char) :
    ∀ c ∈ (text.dropWhile p).head?, p c = false := by
  intro c front
  have stops := List.head?_dropWhile_not p text
  rw [front] at stops
  exact stops

theorem ends_of_read (c : Char) (cs : List Char) : (read c cs).1.EndsBefore (read c cs).2 := by
  unfold read
  split
  · intro d front
    rw [extendedBy_word]
    exact stops_dropWhile cs d front
  · split
    · exact stops_dropWhile cs
    · split
      · unfold readString
        split <;> exact fun _ _ => rfl
      · cases found : readOperator? (c :: cs) with
        | none => exact fun _ _ => rfl
        | some result => exact ends_of_readOperator? found

theorem ofOperator?_of_not_read {c : Char} {cs : List Char}
    (unread : readOperator? (c :: cs) = none) : Kind.ofOperator? [c] = none := by
  unfold readOperator? at unread
  split at unread
  · rename_i empty
    cases empty
  · rename_i same
    cases same
    exact Option.map_eq_none_iff.1 unread
  · rename_i same
    cases same
    split at unread
    · cases unread
    · exact Option.map_eq_none_iff.1 unread

theorem not_head_of_operator {c : Char} (unknown : Kind.ofOperator? [c] = none) {k : Kind}
    (member : k ∈ Kind.operators) : k.name.toList.head? ≠ some c := by
  have known : ∀ k ∈ Kind.operators,
      k.name.toList.head?.all (fun c => (Kind.ofOperator? [c]).isSome) = true := by
    decide
  intro front
  have single := (Option.all_eq_true _ _).1 (known k member) c front
  rw [unknown] at single
  cases single

theorem fits_word {l : Lexeme} {before rest : List Char} {text : String}
    (kind : l.kind = Kind.ofWord text) (word : l.Wordlike) (ends : l.EndsBefore rest) :
    l.Fits before rest := by
  have member := Kind.ofWord_mem_words text
  rw [← kind] at member
  obtain ⟨k, value⟩ := l
  cases k <;> first | exact ⟨word, ends⟩ | simp [Kind.words] at member

theorem fits_operator {l : Lexeme} {before rest : List Char} (member : l.kind ∈ Kind.operators)
    (shown : l.value = l.kind.name.toList) (ends : l.EndsBefore rest) : l.Fits before rest := by
  have single : l.kind = .assign ∨ l.kind = .bang → ∀ c ∈ rest.head?, c ≠ '=' := by
    rintro kind c front rfl
    have stops := ends _ front
    obtain ⟨k, value⟩ := l
    rcases kind with rfl | rfl <;> cases stops
  obtain ⟨k, value⟩ := l
  cases k <;> first
    | exact shown
    | exact ⟨shown, single (.inl rfl)⟩
    | exact ⟨shown, single (.inr rfl)⟩
    | exact absurd member (by decide)
    | simp [Kind.operators] at member

end Lexeme

/-- A place that is not inside a row of digits. -/
def Apart (before rest : List Char) : Prop :=
  ∀ c ∈ before.getLast?, ∀ d ∈ rest.head?, Text.isDigit c = true → Text.isDigit d = false

namespace Lexeme

theorem fits_of_read {c : Char} {cs before : List Char} (bare : Layout.isBlank c = false)
    (noComment : c ≠ '#') (apart : Apart before (c :: cs)) :
    (read c cs).1.Fits before (read c cs).2 := by
  have ends := ends_of_read c cs
  unfold read at ends ⊢
  by_cases word : startsWord c = true
  · rw [if_pos word] at ends ⊢
    refine fits_word rfl ⟨⟨c, rfl, word⟩, ?_, rfl, ofWord_ne_identifier_iff _⟩ ends
    rw [List.forall_mem_cons]
    exact ⟨continuesWord_of_startsWord word, all_takeWhile cs⟩
  · rw [if_neg word] at ends ⊢
    by_cases digit : Text.isDigit c = true
    · rw [if_pos digit] at ends ⊢
      refine ⟨List.cons_ne_nil _ _, ?_, ?_, ends⟩
      · rw [List.forall_mem_cons]
        exact ⟨digit, all_takeWhile cs⟩
      · intro d last
        by_contra other
        rw [Bool.not_eq_false] at other
        rw [apart d last c rfl other] at digit
        cases digit
    · rw [if_neg digit] at ends ⊢
      by_cases quote : c = '"'
      · rw [if_pos quote] at ends ⊢
        unfold readString
        cases closed : stringBody cs with
        | none => exact .inr ⟨cs, rfl, (stringBody_eq_none_iff cs).1 closed, rfl⟩
        | some found => exact inside_of_stringBody closed
      · rw [if_neg quote] at ends ⊢
        cases found : readOperator? (c :: cs) with
        | none =>
          refine .inl ⟨c, rfl, ?_⟩
          have unknown := ofOperator?_of_not_read found
          simp only [starts, word, digit, quote, noComment, bare, decide_false, Bool.or_false,
            Bool.false_or, List.any_eq_false, decide_eq_true_eq]
          exact fun k member => not_head_of_operator unknown member
        | some result =>
          obtain ⟨member, shown⟩ := spelled_of_readOperator? found
          rw [found] at ends
          exact fits_operator member shown ends

end Lexeme

theorem apart_of_not_digit {before rest : List Char} (plain : ∀ d ∈ rest.head?, Text.isDigit d = false) :
    Apart before rest := fun _ _ d front _ => plain d front

theorem apart_behind {before text rest : List Char}
    (closes : ∃ c ∈ text.getLast?, Text.isDigit c = false) : Apart (before ++ text) rest := by
  obtain ⟨c, last, plain⟩ := closes
  intro d final e _ digit
  rw [List.getLast?_append, Option.mem_def.1 last, Option.some_or, Option.mem_some_iff] at final
  rw [← final, plain] at digit
  cases digit

theorem Layout.not_digit_of_isBlank {c : Char} (blank : isBlank c = true) :
    Text.isDigit c = false := by
  simp only [isBlank, Bool.or_eq_true, decide_eq_true_eq] at blank
  rcases blank with ((rfl | rfl) | rfl) | rfl <;> rfl

theorem Layout.Gap.apart {before gap rest : List Char} (layout : Gap gap rest)
    (start : Apart before (gap ++ rest)) : Apart (before ++ gap) rest := by
  induction layout generalizing before with
  | nil =>
    rw [List.append_nil]
    exact start
  | @blank c gap rest blank _ ih =>
    rw [List.append_cons]
    exact ih (apart_behind ⟨c, rfl, not_digit_of_isBlank blank⟩)
  | @comment body gap rest _ ends _ ih =>
    rw [← List.append_assoc]
    apply ih
    apply apart_of_not_digit
    intro c front
    rw [ends c front]
    rfl

namespace Lexeme

theorem apart_operator {k : Kind} (member : k ∈ Kind.operators) {value before rest : List Char}
    (shown : value = k.name.toList) : Apart (before ++ covered ⟨k, value⟩) rest := by
  have closes : ∀ k ∈ Kind.operators,
      k.name.toList.getLast?.any (fun c => !Text.isDigit c) = true := by
    decide
  obtain ⟨c, last, plain⟩ := (Option.any_eq_true _ _).1 (closes k member)
  rw [shown, covered_operator member]
  exact apart_behind ⟨c, last, Bool.not_eq_true' _ ▸ plain⟩

theorem Fits.apart {l : Lexeme} {before rest : List Char} (fits : l.Fits before rest) :
    Apart (before ++ l.covered) rest := by
  obtain ⟨kind, value⟩ := l
  cases kind with
  | identifier | functionWord | letWord | trueWord | falseWord | ifWord | elseWord | returnWord =>
    exact apart_of_not_digit fun d front => not_digit_of_not_continuesWord (fits.2 d front)
  | integer => exact apart_of_not_digit fits.2.2.2
  | string => exact apart_behind ⟨'"', List.getLast?_concat, rfl⟩
  | illegal =>
    obtain ⟨c, rfl, unknown⟩ | ⟨body, _, _, rfl⟩ := fits
    · simp only [starts, Bool.or_eq_false_iff] at unknown
      exact apart_behind ⟨c, rfl, unknown.1.1.1.1.2⟩
    · exact apart_of_not_digit (fun _ front => absurd front (Option.not_mem_none _))
  | eof | other => exact fits.elim
  | assign | bang => exact apart_operator (by decide) fits.1
  | _ => exact apart_operator (by decide) fits

end Lexeme

namespace Scanner

theorem next_cases (s : Scanner) :
    (Layout.Gap s.rest [] ∧
        s.next = (Token.endAt (s.place.past s.rest), ⟨[], s.place.past s.rest⟩)) ∨
      ∃ gap c cs, s.rest = gap ++ c :: cs ∧ Layout.Gap gap (c :: cs) ∧
        Layout.isBlank c = false ∧ c ≠ '#' ∧
        s.next = ((Lexeme.read c cs).1.toToken (s.place.past gap),
          ⟨(Lexeme.read c cs).2, (s.place.past gap).past (Lexeme.read c cs).1.covered⟩) := by
  have layout := (Layout.gap_of_divide s.rest).1
  have whole := Layout.divide_append false s.rest
  unfold next
  cases behind : (Layout.divide false s.rest).2 with
  | nil =>
    left
    rw [behind, List.append_nil] at whole
    rw [behind, whole] at layout
    refine ⟨layout, ?_⟩
    simp only [behind, whole]
  | cons c cs =>
    right
    rw [behind] at layout whole
    obtain ⟨bare, noComment⟩ := Layout.bare_of_divide behind
    refine ⟨_, c, cs, whole.symm, layout, bare, noComment, ?_⟩
    simp only [behind]

theorem tiles (s : Scanner) {before : List Char} (apart : Apart before s.rest) :
    ∃ ts last, s.tokens = ts ++ [last] ∧ last.kind = .eof ∧ Tiles before s.rest ts := by
  fun_induction tokens s generalizing before with
  | case1 s =>
    rename_i result ended
    obtain ⟨layout, _⟩ | ⟨gap, c, cs, _, _, _, _, same⟩ := s.next_cases
    · exact ⟨[], _, rfl, ended, .done layout⟩
    · exact absurd ((congrArg (·.1.kind) same).symm.trans ended) (Lexeme.read_kind_ne_eof c cs)
  | case2 s =>
    rename_i result more ih
    obtain ⟨_, ended⟩ | ⟨gap, c, cs, whole, layout, bare, noComment, same⟩ := s.next_cases
    · exact absurd (congrArg (·.1.kind) ended) more
    rw [whole] at apart
    have fits := Lexeme.fits_of_read bare noComment (layout.apart apart)
    have front := Lexeme.read_append c cs
    have lexeme : s.next.1.lexeme = (Lexeme.read c cs).1 := by
      rw [same, Lexeme.lexeme_toToken]
    have rest : s.next.2.rest = (Lexeme.read c cs).2 := by rw [same]
    rw [← lexeme, ← rest] at fits front
    obtain ⟨ts, last, tokens, ended, further⟩ := ih fits.apart
    refine ⟨s.next.1 :: ts, last, congrArg (s.next.1 :: ·) tokens, ended, ?_⟩
    rw [whole, ← front, ← List.append_assoc]
    rw [← front] at layout
    exact .token layout fits further

end Scanner

/-- Every source text is made up of the tokens before its end token and of layout between them, and
every token is of its kind's form and as long as it can be. -/
theorem tokens_tile_source (source : String) :
    ∃ ts last, tokenize source = ts ++ [last] ∧ last.kind = .eof ∧ Tiles [] source.toList ts :=
  (Scanner.ofString source).tiles fun _ last => absurd last (Option.not_mem_none _)

end PrattFrontEnd
