import PrattFrontEnd.Layout
import PrattFrontEnd.Lexeme

/-!
The scanner: a source text read token by token. Past the end of the text it keeps answering with the
same end token. Main statement: `Scanner.next_length_lt`, every other token uses up source text.
-/
namespace PrattFrontEnd

structure Scanner where
  rest : List Char
  place : Place
  deriving DecidableEq, Repr

namespace Scanner

def ofText (text : List Char) : Scanner := ⟨text, ⟨1, 1⟩⟩

def ofString (source : String) : Scanner := ofText source.toList

def next (s : Scanner) : Token × Scanner :=
  let (gap, text) := Layout.divide false s.rest
  let start := s.place.past gap
  match text with
  | [] => (Token.endAt start, ⟨[], start⟩)
  | c :: cs =>
    let (lexeme, rest) := Lexeme.read c cs
    (lexeme.toToken start, ⟨rest, start.past lexeme.covered⟩)

theorem next_length_lt {s : Scanner} (more : s.next.1.kind ≠ .eof) :
    s.next.2.rest.length < s.rest.length := by
  have bound := Layout.divide_rest_length_le false s.rest
  unfold next at more ⊢
  cases split : (Layout.divide false s.rest).2 with
  | nil => simp [split, Token.endAt] at more
  | cons c cs =>
    have used := Lexeme.read_rest_length_le c cs
    simp only [split, List.length_cons] at bound ⊢
    omega

theorem next_length_le (s : Scanner) : s.next.2.rest.length ≤ s.rest.length := by
  by_cases more : s.next.1.kind = .eof
  · unfold next at more ⊢
    cases split : (Layout.divide false s.rest).2 with
    | nil => simp [split]
    | cons c cs =>
      simp only [split] at more
      exact absurd more (Lexeme.read_kind_ne_eof c cs)
  · exact Nat.le_of_lt (next_length_lt more)

end Scanner

end PrattFrontEnd
