import PrattFrontEnd.Listing

/-!
Reading a lexeme again. What has been read once is read again wherever it stands, unless the text
behind it carries it on. Main statement: `read_back`.
-/
namespace PrattFrontEnd

def Kind.words : List Kind :=
  [identifier, functionWord, letWord, trueWord, falseWord, ifWord, elseWord, returnWord]

theorem Kind.ofWord_mem_words (word : String) : ofWord word ∈ words := by
  unfold ofWord
  split <;> decide

namespace Lexeme

/-- A lexeme that is read from some text and means something. -/
def Legible (l : Lexeme) : Prop := l.kind ≠ .illegal ∧ ∃ c cs, (read c cs).1 = l

/-- Whether a character right behind a lexeme becomes a part of it. -/
def extendedBy (l : Lexeme) (c : Char) : Bool :=
  match l.kind with
  | .identifier | .functionWord | .letWord | .trueWord | .falseWord | .ifWord | .elseWord
  | .returnWord => continuesWord c
  | .integer => Text.isDigit c
  | .assign | .bang => c = '='
  | _ => false

def EndsBefore (l : Lexeme) (tail : List Char) : Prop := ∀ c ∈ tail.head?, l.extendedBy c = false

theorem takeWhile_append {p : Char → Bool} {front tail : List Char} (all : ∀ c ∈ front, p c = true)
    (stops : ∀ c ∈ tail.head?, p c = false) :
    (front ++ tail).takeWhile p = front ∧ (front ++ tail).dropWhile p = tail := by
  rw [List.takeWhile_append_of_pos all, List.dropWhile_append_of_pos all]
  cases tail with
  | nil => simp
  | cons c cs =>
    have stopped : p c = false := stops c rfl
    simp [stopped]

theorem all_takeWhile {p : Char → Bool} (text : List Char) : ∀ c ∈ text.takeWhile p, p c = true := by
  intro c member
  exact List.all_eq_true.1 List.all_takeWhile c member

theorem plain_of_unpaired {c : Char} {cs : List Char} (alone : c = '\\' → cs = [] → False)
    (paired : ∀ d ds, c = '\\' → cs = d :: ds → False) : c ≠ '\\' := by
  intro same
  cases cs with
  | nil => exact alone same rfl
  | cons d ds => exact paired d ds same rfl

theorem stringBody_back {text body rest : List Char} (closed : stringBody text = some (body, rest))
    (tail : List Char) : stringBody (body ++ '"' :: tail) = some (body, tail) := by
  fun_induction stringBody text generalizing body rest with
  | case1 => cases closed
  | case2 =>
    cases closed
    rfl
  | case3 => cases closed
  | case4 c text ih =>
    obtain ⟨⟨b, r⟩, inner, same⟩ := Option.map_eq_some_iff.1 closed
    cases same
    rw [List.cons_append, List.cons_append, stringBody, ih inner]
    rfl
  | case5 c text quote backslash protects ih =>
    obtain ⟨⟨b, r⟩, inner, same⟩ := Option.map_eq_some_iff.1 closed
    cases same
    have plain := plain_of_unpaired backslash protects
    rw [List.cons_append, stringBody, ih inner]
    · rfl
    · exact quote
    · intro same
      exact absurd same plain
    · intro d rest same
      exact absurd same plain

theorem extendedBy_word (word : String) (text : List Char) (c : Char) :
    extendedBy ⟨Kind.ofWord word, text⟩ c = continuesWord c := by
  have member := Kind.ofWord_mem_words word
  generalize Kind.ofWord word = k at member
  cases k <;> first | rfl | simp [Kind.words] at member

theorem extendedBy_of_longer {c d : Char} {k longer : Kind} (known : Kind.ofOperator? [c] = some k)
    (double : Kind.ofOperator? [c, d] = some longer) : extendedBy ⟨k, [c]⟩ d = true := by
  have spelling := Kind.toList_name_of_ofOperator? double
  have member := Kind.mem_operators_of_ofOperator? double
  cases longer with
  | other name => simp [Kind.operators] at member
  | equal =>
    cases spelling
    cases known
    rfl
  | notEqual =>
    cases spelling
    cases known
    rfl
  | ifWord => exact absurd member (by decide)
  | _ => cases spelling

theorem readOperator?_single {c : Char} {k : Kind} (known : Kind.ofOperator? [c] = some k)
    {tail : List Char} (ends : EndsBefore ⟨k, [c]⟩ tail) :
    readOperator? (c :: tail) = some (⟨k, [c]⟩, tail) := by
  cases tail with
  | nil =>
    rw [readOperator?, known]
    rfl
  | cons d tail =>
    cases double : Kind.ofOperator? [c, d] with
    | none =>
      rw [readOperator?, double, known]
      rfl
    | some longer =>
      have extended := extendedBy_of_longer known double
      rw [ends d rfl] at extended
      cases extended

theorem readOperator?_back {c : Char} {cs rest : List Char} {l : Lexeme}
    (found : readOperator? (c :: cs) = some (l, rest)) {tail : List Char}
    (ends : l.EndsBefore tail) :
    ∃ more, l.covered = c :: more ∧ readOperator? (c :: (more ++ tail)) = some (l, tail) := by
  unfold readOperator? at found
  split at found
  · cases found
  · rename_i same
    cases same
    obtain ⟨k, known, same⟩ := Option.map_eq_some_iff.1 found
    cases same
    refine ⟨[], ?_, readOperator?_single known ends⟩
    simp [covered, kind_ne_string_of_ofOperator? known]
  · rename_i d ds same
    cases same
    split at found
    · rename_i k known
      cases found
      refine ⟨[d], by simp [covered, kind_ne_string_of_ofOperator? known], ?_⟩
      rw [List.singleton_append, readOperator?, known]
    · obtain ⟨k, known, same⟩ := Option.map_eq_some_iff.1 found
      cases same
      refine ⟨[], ?_, readOperator?_single known ends⟩
      simp [covered, kind_ne_string_of_ofOperator? known]

/-- What has been read is read again, up to text that does not carry it on. -/
theorem read_back {l : Lexeme} (legible : l.Legible) {tail : List Char}
    (ends : l.EndsBefore tail) :
    ∃ c cs, l.covered ++ tail = c :: cs ∧ read c cs = (l, tail) := by
  obtain ⟨legal, c, cs, rfl⟩ := legible
  unfold read at legal ends ⊢
  by_cases word : startsWord c = true
  · rw [if_pos word] at legal ends ⊢
    obtain ⟨taken, dropped⟩ := takeWhile_append (p := continuesWord) (all_takeWhile cs)
      (fun d front => extendedBy_word _ _ d ▸ ends d front)
    refine ⟨c, cs.takeWhile continuesWord ++ tail, ?_, ?_⟩
    · simp [covered, ofWord_ne_string]
    · rw [if_pos word, taken, dropped]
  · rw [if_neg word] at legal ends ⊢
    by_cases digit : Text.isDigit c = true
    · rw [if_pos digit] at legal ends ⊢
      obtain ⟨taken, dropped⟩ :=
        takeWhile_append (p := Text.isDigit) (all_takeWhile cs) ends
      refine ⟨c, cs.takeWhile Text.isDigit ++ tail, ?_, ?_⟩
      · simp [covered]
      · rw [if_neg word, if_pos digit, taken, dropped]
    · rw [if_neg digit] at legal ends ⊢
      by_cases quote : c = '"'
      · rw [if_pos quote] at legal ends ⊢
        unfold readString at legal ends ⊢
        cases closed : stringBody cs with
        | none =>
          rw [closed] at legal
          exact absurd rfl legal
        | some found =>
          obtain ⟨body, rest⟩ := found
          refine ⟨c, body ++ '"' :: tail, ?_, ?_⟩
          · simp [covered, quote]
          · rw [if_neg word, if_neg digit, if_pos quote, stringBody_back closed]
      · rw [if_neg quote] at legal ends ⊢
        cases found : readOperator? (c :: cs) with
        | none =>
          rw [found] at legal
          exact absurd rfl legal
        | some result =>
          obtain ⟨l, rest⟩ := result
          rw [found] at ends
          obtain ⟨more, front, again⟩ := readOperator?_back found ends
          refine ⟨c, more ++ tail, ?_, ?_⟩
          · rw [Option.getD_some, front, List.cons_append]
          · rw [if_neg word, if_neg digit, if_neg quote, again]
            rfl

end Lexeme

end PrattFrontEnd
