import PrattFrontEnd.Scanner
import PrattFrontEnd.Text.Quoted

/-!
All tokens of a source text, and how they are listed: one line a token with its place, its kind and its
quoted text, separated by tabs.
-/
namespace PrattFrontEnd

namespace Scanner

def tokens (s : Scanner) : List Token :=
  let result := s.next
  if _more : result.1.kind = .eof then [result.1] else result.1 :: tokens result.2
termination_by s.rest.length
decreasing_by exact next_length_lt _more

theorem tokens_of_ended {s : Scanner} (ended : s.next.1.kind = .eof) : s.tokens = [s.next.1] := by
  rw [tokens]
  exact dif_pos ended

theorem tokens_of_more {s : Scanner} (more : s.next.1.kind ≠ .eof) :
    s.tokens = s.next.1 :: s.next.2.tokens := by
  rw [tokens]
  exact dif_neg more

theorem tokens_ne_nil (s : Scanner) : s.tokens ≠ [] := by
  by_cases ended : s.next.1.kind = .eof
  · rw [tokens_of_ended ended]
    exact List.cons_ne_nil _ _
  · rw [tokens_of_more ended]
    exact List.cons_ne_nil _ _

theorem tokens_of_spent {s : Scanner} (spent : s.rest = []) : s.tokens.dropLast = [] := by
  have ended : s.next.1.kind = .eof := by
    rw [next, spent]
    rfl
  rw [tokens_of_ended ended]
  rfl

end Scanner

def tokenize (source : String) : List Token := (Scanner.ofString source).tokens

def Token.listed (t : Token) : String :=
  toString t.place.line ++ ":" ++ toString t.place.column ++ "\t" ++ t.kind.name ++ "\t" ++
    Text.quoted t.text

/-- The listing of a source text, with a last line for its end. -/
def listing (source : String) : String := "\n".intercalate ((tokenize source).map Token.listed)

end PrattFrontEnd
