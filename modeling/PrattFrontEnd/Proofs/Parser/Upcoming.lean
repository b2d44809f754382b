import Mathlib.Data.Stream.Init
import PrattFrontEnd.Proofs.Parser.Motion

/-!
The tokens to come, without an end: a source that is used up goes on delivering end tokens. What a
parser does depends on this stream and not on where it comes from. Main statements:
`upcoming_advance`, one move drops one token, and `upcoming_ofList`, the stream of a list.
-/
namespace PrattFrontEnd

def Source.upcoming : Source → Stream' Token :=
  Stream'.corec (fun s => s.next.1) (fun s => s.next.2)

theorem Source.upcoming_eq (s : Source) :
    s.upcoming = Stream'.cons s.next.1 s.next.2.upcoming :=
  Stream'.corec_eq _ _ s

theorem Source.upcoming_spent {s : Source} (spent : s.Spent) :
    s.upcoming = Stream'.const s.next.1 := by
  apply Stream'.ext
  intro n
  induction n generalizing s with
  | zero => rfl
  | succ n ih =>
    rw [s.upcoming_eq, Stream'.get_succ_cons, ih (spent_next spent), spent.2]
    rfl

theorem Source.upcoming_buffer (taken : Nat) (tokens : List Token) (closing : Place) :
    (buffer ⟨taken, tokens, closing⟩).upcoming =
      tokens ++ₛ Stream'.const (Token.endAt closing) := by
  induction tokens generalizing taken with
  | nil => exact upcoming_spent ⟨rfl, rfl⟩
  | cons t ts ih =>
    rw [upcoming_eq, Stream'.cons_append_stream, ← ih (taken + 1)]
    rfl

namespace Parser

/-- The tokens from the current one on. -/
def upcoming (p : Parser) : Stream' Token :=
  Stream'.cons p.current (Stream'.cons p.peek p.source.upcoming)

theorem upcoming_head (p : Parser) : p.upcoming.head = p.current := rfl

theorem upcoming_next (p : Parser) : p.upcoming.tail.head = p.peek := rfl

theorem upcoming_advance (p : Parser) : p.advance.upcoming = p.upcoming.tail := by
  rw [upcoming, upcoming, Stream'.tail_cons, p.source.upcoming_eq]
  rfl

theorem upcoming_onSource (source : Source) (maxDepth : Int) :
    (onSource source maxDepth).upcoming = source.upcoming := by
  rw [onSource, upcoming_advance, upcoming_advance, upcoming, Stream'.tail_cons, Stream'.tail_cons]

def finish (tokens : List Token) : Token := Token.endAt (TokenBuffer.ofList tokens).closing

theorem delivered_ofList (tokens : List Token) :
    (Source.ofList tokens).upcoming = tokens ++ₛ Stream'.const (finish tokens) :=
  Source.upcoming_buffer 0 tokens _

theorem upcoming_ofList (tokens : List Token) (maxDepth : Int) :
    (ofList tokens maxDepth).upcoming = tokens ++ₛ Stream'.const (finish tokens) := by
  rw [ofList, upcoming_onSource, delivered_ofList]

theorem finish_append (tokens : List Token) {more : List Token} (some : more ≠ []) :
    finish (tokens ++ more) = finish more := by
  rw [finish, finish, TokenBuffer.ofList, TokenBuffer.ofList, List.getLast?_append,
    Option.or_of_isSome (List.getLast?_isSome.2 some)]

end Parser

end PrattFrontEnd
