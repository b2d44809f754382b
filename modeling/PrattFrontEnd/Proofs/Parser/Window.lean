import PrattFrontEnd.Parser.Parse

/-!
What lies before a parser, as a list of tokens. A source delivers a list when these are its tokens up
to the end of input and nothing but one end token, again and again, follows. Main statements:
`on_ofList`, a parser over a list stands on that list, and `on_advance`, one move drops one token.
-/
namespace PrattFrontEnd

namespace Source

/-- One and the same end token is all that is left. -/
def Spent (s : Source) : Prop := s.next.1.kind = .eof ∧ s.next.2.next = s.next

/-- The source delivers these tokens, none of them an end token, and is spent then. -/
def Delivers : Source → List Token → Prop
  | s, [] => s.Spent
  | s, t :: ts => s.next.1 = t ∧ t.kind ≠ .eof ∧ s.next.2.Delivers ts

theorem spent_next {s : Source} (spent : s.Spent) : s.next.2.Spent := by
  obtain ⟨ends, same⟩ := spent
  constructor
  · rw [same]
    exact ends
  · rw [same, same]

theorem buffer_delivers {tokens : List Token} (taken : Nat) (closing : Place)
    (noEnd : ∀ t ∈ tokens, t.kind ≠ .eof) :
    (buffer ⟨taken, tokens, closing⟩).Delivers tokens := by
  induction tokens generalizing taken with
  | nil => exact ⟨rfl, rfl⟩
  | cons t ts ih =>
    have more : ∀ u ∈ ts, u.kind ≠ .eof := fun u member => noEnd u (List.mem_cons_of_mem t member)
    exact ⟨rfl, noEnd t List.mem_cons_self, ih (taken + 1) more⟩

theorem ofList_delivers {tokens : List Token} (noEnd : ∀ t ∈ tokens, t.kind ≠ .eof) :
    (ofList tokens).Delivers tokens :=
  buffer_delivers 0 _ noEnd

theorem buffer_delivers_ended {tokens : List Token} (taken : Nat) (place : Place)
    (noEnd : ∀ t ∈ tokens, t.kind ≠ .eof) :
    (buffer ⟨taken, tokens ++ [Token.endAt place], place⟩).Delivers tokens := by
  induction tokens generalizing taken with
  | nil => exact ⟨rfl, rfl⟩
  | cons t ts ih =>
    have more : ∀ u ∈ ts, u.kind ≠ .eof := fun u member => noEnd u (List.mem_cons_of_mem t member)
    exact ⟨rfl, noEnd t List.mem_cons_self, ih (taken + 1) more⟩

theorem ofList_delivers_ended {tokens : List Token} (place : Place)
    (noEnd : ∀ t ∈ tokens, t.kind ≠ .eof) :
    (ofList (tokens ++ [Token.endAt place])).Delivers tokens := by
  have closing : TokenBuffer.ofList (tokens ++ [Token.endAt place]) =
      ⟨0, tokens ++ [Token.endAt place], place⟩ := by
    simp [TokenBuffer.ofList, Token.endAt]
  rw [ofList, closing]
  exact buffer_delivers_ended 0 place noEnd

theorem delivers_unique {s : Source} {ts us : List Token} (first : s.Delivers ts)
    (second : s.Delivers us) : ts = us := by
  induction ts generalizing s us with
  | nil =>
    cases us with
    | nil => rfl
    | cons u us =>
      obtain ⟨head, more, _⟩ := second
      exact absurd (head ▸ first.1) more
  | cons t ts ih =>
    obtain ⟨head, more, tail⟩ := first
    cases us with
    | nil => exact absurd (head ▸ second.1) more
    | cons u us =>
      obtain ⟨head', _, tail'⟩ := second
      rw [← head, ← head', ih tail tail']

end Source

namespace Parser

@[simp] theorem advance_current (p : Parser) : p.advance.current = p.peek := rfl

@[simp] theorem advance_peek (p : Parser) : p.advance.peek = p.source.next.1 := rfl

@[simp] theorem advance_source (p : Parser) : p.advance.source = p.source.next.2 := rfl

@[simp] theorem advance_table (p : Parser) : p.advance.table = p.table := rfl

@[simp] theorem advance_span (p : Parser) : p.advance.span = p.span := rfl

@[simp] theorem advance_depth (p : Parser) : p.advance.depth = p.depth := rfl

@[simp] theorem advance_maxDepth (p : Parser) : p.advance.maxDepth = p.maxDepth := rfl

@[simp] theorem advance_log (p : Parser) : p.advance.log = p.log := rfl

def Ahead (p : Parser) : List Token → Prop
  | [] => p.peek.kind = .eof ∧ p.source.Spent
  | t :: ts => p.peek = t ∧ t.kind ≠ .eof ∧ p.source.Delivers ts

/-- The tokens from the current one on. -/
def On (p : Parser) : List Token → Prop
  | [] => p.current.kind = .eof ∧ p.Ahead []
  | t :: ts => p.current = t ∧ t.kind ≠ .eof ∧ p.Ahead ts

theorem ahead_advance {p : Parser} {ts : List Token} (delivers : p.source.Delivers ts) :
    p.advance.Ahead ts := by
  cases ts with
  | nil => exact ⟨delivers.1, Source.spent_next delivers⟩
  | cons t ts => exact delivers

theorem on_advance {p : Parser} {ts : List Token} (ahead : p.Ahead ts) : p.advance.On ts := by
  cases ts with
  | nil => exact ⟨ahead.1, ahead.2.1, Source.spent_next ahead.2⟩
  | cons t ts => exact ⟨ahead.1, ahead.2.1, ahead_advance ahead.2.2⟩

theorem ahead_of_on {p : Parser} {ts : List Token} (on : p.On ts) : p.Ahead ts.tail := by
  cases ts with
  | nil => exact on.2
  | cons t ts => exact on.2.2

theorem ahead_step {p : Parser} {t : Token} {ts : List Token} (ahead : p.Ahead (t :: ts)) :
    p.advance.Ahead ts :=
  ahead_of_on (on_advance ahead)

theorem peek_of_ahead {p : Parser} {ts : List Token} (holds : Kind → Prop) (ahead : p.Ahead ts)
    (ended : holds .eof) (front : ∀ t ∈ ts.head?, holds t.kind) : holds p.peek.kind := by
  cases ts with
  | nil =>
    rw [ahead.1]
    exact ended
  | cons t ts =>
    rw [ahead.1]
    exact front t rfl

theorem current_of_on {p : Parser} {ts : List Token} (holds : Kind → Prop) (on : p.On ts)
    (ended : holds .eof) (front : ∀ t ∈ ts.head?, holds t.kind) : holds p.current.kind := by
  cases ts with
  | nil =>
    rw [on.1]
    exact ended
  | cons t ts =>
    rw [on.1]
    exact front t rfl

theorem on_split {p : Parser} {ts : List Token} (on : p.On ts) (more : p.current.kind ≠ .eof) :
    ∃ tail, ts = p.current :: tail ∧ p.Ahead tail := by
  cases ts with
  | nil => exact absurd on.1 more
  | cons t ts => exact ⟨ts, by rw [on.1], on.2.2⟩

theorem ahead_split {p : Parser} {ts : List Token} (ahead : p.Ahead ts)
    (more : p.peek.kind ≠ .eof) : ∃ tail, ts = p.peek :: tail ∧ p.advance.Ahead tail := by
  cases ts with
  | nil => exact absurd ahead.1 more
  | cons t ts => exact ⟨ts, by rw [ahead.1], ahead_step ahead⟩

theorem ahead_unique {p : Parser} {ts us : List Token} (first : p.Ahead ts)
    (second : p.Ahead us) : ts = us := by
  cases ts with
  | nil =>
    cases us with
    | nil => rfl
    | cons u us => exact absurd (second.1 ▸ first.1) second.2.1
  | cons t ts =>
    cases us with
    | nil => exact absurd (first.1 ▸ second.1) first.2.1
    | cons u us => rw [← first.1, ← second.1, Source.delivers_unique first.2.2 second.2.2]

theorem on_unique {p : Parser} {ts us : List Token} (first : p.On ts) (second : p.On us) :
    ts = us := by
  cases ts with
  | nil =>
    cases us with
    | nil => rfl
    | cons u us => exact absurd (second.1 ▸ first.1) second.2.1
  | cons t ts =>
    cases us with
    | nil => exact absurd (first.1 ▸ second.1) first.2.1
    | cons u us => rw [← first.1, ← second.1, ahead_unique first.2.2 second.2.2]

theorem on_onSource {source : Source} {tokens : List Token} (maxDepth : Int)
    (delivers : source.Delivers tokens) : (onSource source maxDepth).On tokens :=
  on_advance (ahead_advance delivers)

theorem on_ofList {tokens : List Token} (maxDepth : Int)
    (noEnd : ∀ t ∈ tokens, t.kind ≠ .eof) : (ofList tokens maxDepth).On tokens :=
  on_onSource maxDepth (Source.ofList_delivers noEnd)

end Parser

end PrattFrontEnd
