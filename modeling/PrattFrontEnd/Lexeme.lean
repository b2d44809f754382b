import PrattFrontEnd.Token
import PrattFrontEnd.Text.Number

/-!
Lexemes: what one token looks like at the front of a text. Reading a lexeme never fails; a character
that starts nothing and a string without its closing quote become illegal lexemes. Main statement:
`Lexeme.read_append`, the covered text and the rest make up the text read.
-/
namespace PrattFrontEnd

structure Lexeme where
  kind : Kind
  value : List Char
  deriving DecidableEq, Repr

namespace Lexeme

def startsWord (c : Char) : Bool := Text.isLetter c || c = '_'

def continuesWord (c : Char) : Bool := Text.isAlphanumeric c || c = '_'

theorem continuesWord_of_startsWord {c : Char} (starts : startsWord c = true) :
    continuesWord c = true := by
  simp only [startsWord, continuesWord, Bool.or_eq_true, decide_eq_true_eq] at starts ⊢
  exact starts.imp Text.isAlphanumeric_of_isLetter id

/-- The inside of a string whose opening quote has been read, kept as written, and what follows the
closing quote; nothing when the quote is never closed. A backslash protects the next character. -/
def stringBody : List Char → Option (List Char × List Char)
  | [] => none
  | '"' :: rest => some ([], rest)
  | ['\\'] => none
  | '\\' :: c :: rest => (stringBody rest).map fun (body, after) => ('\\' :: c :: body, after)
  | c :: rest => (stringBody rest).map fun (body, after) => (c :: body, after)

def readString (text : List Char) : Lexeme × List Char :=
  match stringBody text with
  | some (body, rest) => (⟨.string, body⟩, rest)
  | none => (⟨.illegal, '"' :: text⟩, [])

def readOperator? : List Char → Option (Lexeme × List Char)
  | [] => none
  | [c] => (Kind.ofOperator? [c]).map fun kind => (⟨kind, [c]⟩, [])
  | c :: d :: rest =>
    match Kind.ofOperator? [c, d] with
    | some kind => some (⟨kind, [c, d]⟩, rest)
    | none => (Kind.ofOperator? [c]).map fun kind => (⟨kind, [c]⟩, d :: rest)

def read (c : Char) (cs : List Char) : Lexeme × List Char :=
  if startsWord c then
    let word := c :: cs.takeWhile continuesWord
    (⟨Kind.ofWord (String.ofList word), word⟩, cs.dropWhile continuesWord)
  else if Text.isDigit c then
    (⟨.integer, c :: cs.takeWhile Text.isDigit⟩, cs.dropWhile Text.isDigit)
  else if c = '"' then
    readString cs
  else
    (readOperator? (c :: cs)).getD (⟨.illegal, [c]⟩, cs)

/-- The part of the source that a lexeme covers: a string has its quotes there, all else is as it
reads. -/
def covered (l : Lexeme) : List Char :=
  if l.kind = .string then '"' :: l.value ++ ['"'] else l.value

def toToken (l : Lexeme) (place : Place) : Token := ⟨l.kind, String.ofList l.value, place⟩

theorem stringBody_append {text body rest : List Char}
    (closed : stringBody text = some (body, rest)) :
    body ++ '"' :: rest = text := by
  fun_induction stringBody text generalizing body rest with
  | case1 => cases closed
  | case2 => cases closed; rfl
  | case3 => cases closed
  | case4 c text ih =>
    obtain ⟨⟨b, r⟩, inner, same⟩ := Option.map_eq_some_iff.1 closed
    cases same
    simp [ih inner]
  | case5 c text _ _ _ ih =>
    obtain ⟨⟨b, r⟩, inner, same⟩ := Option.map_eq_some_iff.1 closed
    cases same
    simp [ih inner]

theorem readString_append (text : List Char) :
    (readString text).1.covered ++ (readString text).2 = '"' :: text := by
  unfold readString
  cases closed : stringBody text with
  | none => simp [covered]
  | some found =>
    obtain ⟨body, rest⟩ := found
    simp [covered, stringBody_append closed]

theorem kind_ne_string_of_ofOperator? {spelling : List Char} {kind : Kind}
    (known : Kind.ofOperator? spelling = some kind) : kind ≠ .string :=
  fun same => absurd (same ▸ Kind.mem_operators_of_ofOperator? known) (by decide)

theorem readOperator?_append {text rest : List Char} {l : Lexeme}
    (found : readOperator? text = some (l, rest)) : l.covered ++ rest = text := by
  unfold readOperator? at found
  split at found
  · cases found
  · obtain ⟨kind, known, same⟩ := Option.map_eq_some_iff.1 found
    cases same
    simp [covered, kind_ne_string_of_ofOperator? known]
  · split at found
    · rename_i known
      cases found
      simp [covered, kind_ne_string_of_ofOperator? known]
    · obtain ⟨kind, known, same⟩ := Option.map_eq_some_iff.1 found
      cases same
      simp [covered, kind_ne_string_of_ofOperator? known]

theorem ofWord_ne_string (word : String) : Kind.ofWord word ≠ .string := by
  unfold Kind.ofWord
  split <;> decide

theorem read_append (c : Char) (cs : List Char) :
    (read c cs).1.covered ++ (read c cs).2 = c :: cs := by
  unfold read
  split
  · simp [covered, ofWord_ne_string]
  · split
    · simp [covered]
    · split
      · rename_i quote
        rw [quote, readString_append]
      · cases found : readOperator? (c :: cs) with
        | none => simp [covered]
        | some result =>
          obtain ⟨l, rest⟩ := result
          exact readOperator?_append found

theorem stringBody_length_lt {text body rest : List Char}
    (closed : stringBody text = some (body, rest)) : rest.length < text.length := by
  have whole := congrArg List.length (stringBody_append closed)
  simp only [List.length_append, List.length_cons] at whole
  omega

theorem readOperator?_length_lt {text rest : List Char} {l : Lexeme}
    (found : readOperator? text = some (l, rest)) : rest.length < text.length := by
  unfold readOperator? at found
  split at found
  · cases found
  · obtain ⟨kind, known, same⟩ := Option.map_eq_some_iff.1 found
    cases same
    simp
  · split at found
    · cases found
      simp only [List.length_cons]
      omega
    · obtain ⟨kind, known, same⟩ := Option.map_eq_some_iff.1 found
      cases same
      simp

theorem read_rest_length_le (c : Char) (cs : List Char) : (read c cs).2.length ≤ cs.length := by
  unfold read
  split
  · exact (List.dropWhile_sublist _).length_le
  · split
    · exact (List.dropWhile_sublist _).length_le
    · split
      · unfold readString
        cases closed : stringBody cs with
        | none => simp
        | some found => exact Nat.le_of_lt (stringBody_length_lt closed)
      · cases found : readOperator? (c :: cs) with
        | none => simp
        | some result =>
          have used := readOperator?_length_lt found
          simp only [List.length_cons] at used
          simp only [Option.getD_some]
          omega

theorem covered_read (c : Char) (cs : List Char) : ∃ more, (read c cs).1.covered = c :: more := by
  have whole := read_append c cs
  have used := read_rest_length_le c cs
  cases front : (read c cs).1.covered with
  | nil =>
    rw [front, List.nil_append] at whole
    rw [whole, List.length_cons] at used
    omega
  | cons d more =>
    rw [front, List.cons_append] at whole
    exact ⟨more, congrArg (· :: more) (List.cons.inj whole).1⟩

theorem kind_ne_eof_of_ofOperator? {spelling : List Char} {kind : Kind}
    (known : Kind.ofOperator? spelling = some kind) : kind ≠ .eof :=
  fun same => absurd (same ▸ Kind.mem_operators_of_ofOperator? known) (by decide)

theorem readOperator?_kind_ne_eof {text rest : List Char} {l : Lexeme}
    (found : readOperator? text = some (l, rest)) : l.kind ≠ .eof := by
  unfold readOperator? at found
  split at found
  · cases found
  · obtain ⟨kind, known, same⟩ := Option.map_eq_some_iff.1 found
    cases same
    exact kind_ne_eof_of_ofOperator? known
  · split at found
    · rename_i known
      cases found
      exact kind_ne_eof_of_ofOperator? known
    · obtain ⟨kind, known, same⟩ := Option.map_eq_some_iff.1 found
      cases same
      exact kind_ne_eof_of_ofOperator? known

theorem ofWord_ne_eof (word : String) : Kind.ofWord word ≠ .eof := by
  unfold Kind.ofWord
  split <;> decide

theorem read_kind_ne_eof (c : Char) (cs : List Char) : (read c cs).1.kind ≠ .eof := by
  unfold read
  split
  · exact ofWord_ne_eof _
  · split
    · exact Kind.noConfusion
    · split
      · unfold readString
        split <;> exact Kind.noConfusion
      · cases found : readOperator? (c :: cs) with
        | none => exact Kind.noConfusion
        | some result => exact readOperator?_kind_ne_eof found

end Lexeme

end PrattFrontEnd
