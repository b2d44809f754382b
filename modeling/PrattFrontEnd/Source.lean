import PrattFrontEnd.Scanner

/-!
Token sources: a scanner at work, or a list of tokens that is replayed. Both answer every request,
with end tokens once they are exhausted. Main statement: `Source.next_remaining_lt`.
-/
namespace PrattFrontEnd

/-- A list of tokens being replayed. When it is used up, end tokens follow at the closing place. -/
structure TokenBuffer where
  taken : Nat
  pending : List Token
  closing : Place
  deriving DecidableEq, Repr

namespace TokenBuffer

def ofList (tokens : List Token) : TokenBuffer :=
  ⟨0, tokens, (tokens.getLast?.map Token.place).getD ⟨0, 0⟩⟩

def next (b : TokenBuffer) : Token × TokenBuffer :=
  match b.pending with
  | [] => (Token.endAt b.closing, b)
  | token :: pending => (token, ⟨b.taken + 1, pending, b.closing⟩)

end TokenBuffer

inductive Source where
  | scanner (s : Scanner)
  | buffer (b : TokenBuffer)
  deriving DecidableEq, Repr

namespace Source

def ofString (source : String) : Source := .scanner (Scanner.ofString source)

def ofList (tokens : List Token) : Source := .buffer (TokenBuffer.ofList tokens)

def next : Source → Token × Source
  | scanner s => (s.next.1, scanner s.next.2)
  | buffer b => (b.next.1, buffer b.next.2)

/-- A bound on the tokens still to come before the source is exhausted. -/
def remaining : Source → Nat
  | scanner s => s.rest.length
  | buffer b => b.pending.length

theorem next_remaining_le (s : Source) : s.next.2.remaining ≤ s.remaining := by
  cases s with
  | scanner s => exact s.next_length_le
  | buffer b =>
    simp only [next, remaining, TokenBuffer.next]
    split <;> simp_all

theorem next_kind_of_exhausted {s : Source} (exhausted : s.remaining = 0) :
    s.next.1.kind = .eof := by
  cases s with
  | scanner s =>
    have empty : s.rest = [] := List.length_eq_zero_iff.1 exhausted
    simp [next, Scanner.next, empty, Layout.divide, Token.endAt]
  | buffer b =>
    have empty : b.pending = [] := List.length_eq_zero_iff.1 exhausted
    simp [next, TokenBuffer.next, empty, Token.endAt]

theorem next_remaining_lt {s : Source} (more : s.next.1.kind ≠ .eof)
    (left : 0 < s.remaining) : s.next.2.remaining < s.remaining := by
  cases s with
  | scanner s => exact s.next_length_lt more
  | buffer b =>
    simp only [next, remaining, TokenBuffer.next] at left ⊢
    split <;> simp_all

end Source

end PrattFrontEnd
