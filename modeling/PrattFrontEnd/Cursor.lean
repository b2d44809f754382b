import PrattFrontEnd.Scanner

/-!
A cursor into a source text that may be set anywhere, also outside the text, and the scanner over it
that reads character by character. Reading at a negative position counts from the end of the text, so
a cursor set there reads the end of the text before it comes to the start. Looking ahead never wraps.
Main statement: `Cursor.left_of_nextToken`, every token but the end token uses up source text.
-/
namespace PrattFrontEnd

inductive ReadFault where
  | pastEnd (position line : Int)
  | outOfRange
  deriving DecidableEq, Repr

def ReadFault.message : ReadFault → String
  | pastEnd position line =>
    "Attempted to read past end of source at position=<" ++ toString position ++ ">, line=<" ++
      toString line ++ ">"
  | outOfRange => "string index out of range"

theorem ReadFault.ok_of_map {α β : Type} {read : Except ReadFault α} {further : α → β} {b : β}
    (ok : read.map further = .ok b) : ∃ a, read = .ok a ∧ further a = b := by
  cases read with
  | error fault => cases ok
  | ok a => exact ⟨a, rfl, Except.ok.inj ok⟩

structure Cursor where
  source : List Char
  position : Int
  place : Place
  deriving DecidableEq, Repr

namespace Cursor

def atEnd (c : Cursor) : Bool := c.source.length ≤ c.position

def peek (c : Cursor) (offset : Int) : Option Char :=
  if c.position + offset < 0 then none else c.source[(c.position + offset).toNat]?

/-- The character at the position, which counts from the end of the text when it is negative. -/
def here? (c : Cursor) : Option Char :=
  let index := if c.position < 0 then c.position + c.source.length else c.position
  if index < 0 then none else c.source[index.toNat]?

def next (c : Cursor) : Except ReadFault (Char × Cursor) :=
  if c.atEnd then .error (.pastEnd c.position c.place.line)
  else match c.here? with
    | none => .error .outOfRange
    | some char => .ok (char, ⟨c.source, c.position + 1, c.place.step char⟩)

theorem next_of_peek {c : Cursor} {char : Char} (seen : c.peek 0 = some char) :
    c.next = .ok (char, ⟨c.source, c.position + 1, c.place.step char⟩) := by
  unfold peek at seen
  rw [Int.add_zero] at seen
  split at seen
  · cases seen
  · rename_i entered
    obtain ⟨inside, _⟩ := List.getElem?_eq_some_iff.1 seen
    have more : c.atEnd = false := by
      simp only [atEnd, decide_eq_false_iff_not]
      omega
    have found : c.here? = some char := by
      unfold here?
      simp only [if_neg entered]
      exact seen
    unfold next
    rw [more, found]
    rfl

def left (c : Cursor) : Nat := (c.source.length - c.position).toNat

theorem left_of_next {c d : Cursor} {char : Char} (read : c.next = .ok (char, d)) :
    d.left < c.left := by
  unfold next at read
  split at read
  · cases read
  · rename_i more
    split at read
    · cases read
    · cases read
      simp only [atEnd, decide_eq_true_eq] at more
      simp only [left]
      omega

def readWhile (goes : Option Char → Bool) (c : Cursor) : Except ReadFault (List Char × Cursor) :=
  if c.atEnd then .ok ([], c)
  else if goes (c.peek 0) then
    match _read : c.next with
    | .error fault => .error fault
    | .ok (char, d) => (readWhile goes d).map fun (text, e) => (char :: text, e)
  else .ok ([], c)
termination_by c.left
decreasing_by exact left_of_next _read

theorem left_of_readWhile {goes : Option Char → Bool} {c d : Cursor} {text : List Char}
    (read : c.readWhile goes = .ok (text, d)) :
    d.left ≤ c.left ∧ (c.atEnd = false → goes (c.peek 0) = true → d.left < c.left) := by
  fun_induction readWhile goes c generalizing text with
  | case1 c ended =>
    cases read
    exact ⟨Nat.le_refl _, fun more => absurd (ended.symm.trans more) Bool.noConfusion⟩
  | case2 => cases read
  | case3 c more front char e step ih =>
    obtain ⟨⟨further, f⟩, rest, same⟩ := ReadFault.ok_of_map read
    cases same
    have used := Nat.lt_of_le_of_lt (ih rest).1 (left_of_next step)
    exact ⟨Nat.le_of_lt used, fun _ _ => used⟩
  | case4 c more front =>
    cases read
    exact ⟨Nat.le_refl _, fun _ goes => absurd goes front⟩

def skipLine (c : Cursor) : Except ReadFault Cursor := (c.readWhile (· ≠ some '\n')).map (·.2)

theorem left_of_skipLine {c d : Cursor} (passed : c.skipLine = .ok d) (more : c.atEnd = false)
    (front : c.peek 0 ≠ some '\n') : d.left < c.left := by
  obtain ⟨⟨text, e⟩, read, same⟩ := ReadFault.ok_of_map passed
  cases same
  exact (left_of_readWhile read).2 more (decide_eq_true front)

/-- Passes blanks and comments. Before the start of the text nothing is seen ahead, and that counts
as blank. -/
def skipLayout (c : Cursor) : Except ReadFault Cursor :=
  if _ended : c.atEnd then .ok c
  else if (c.peek 0).all Layout.isBlank then
    match _read : c.next with
    | .error fault => .error fault
    | .ok (_, d) => skipLayout d
  else if _hash : c.peek 0 = some '#' then
    match _passed : c.skipLine with
    | .error fault => .error fault
    | .ok d => skipLayout d
  else .ok c
termination_by c.left
decreasing_by
  · exact left_of_next _read
  · exact left_of_skipLine _passed (Bool.not_eq_true _ ▸ _ended) (by rw [_hash]; decide)

theorem left_of_skipLayout {c d : Cursor} (passed : c.skipLayout = .ok d) : d.left ≤ c.left := by
  fun_induction skipLayout c with
  | case1 | case6 =>
    cases passed
    exact Nat.le_refl _
  | case2 | case4 => cases passed
  | case3 c more blank char e read ih =>
    exact Nat.le_trans (ih passed) (Nat.le_of_lt (left_of_next read))
  | case5 c more blank hash e line ih =>
    have used := left_of_skipLine line (Bool.not_eq_true _ ▸ more) (by rw [hash]; decide)
    exact Nat.le_trans (ih passed) (Nat.le_of_lt used)

def advance : Nat → Cursor → Except ReadFault Cursor
  | 0, c => .ok c
  | n + 1, c =>
    match c.next with
    | .error fault => .error fault
    | .ok (_, d) => advance n d

theorem left_of_advance {n : Nat} {c d : Cursor} (read : c.advance n = .ok d) :
    d.left + n ≤ c.left := by
  fun_induction advance n c with
  | case1 =>
    cases read
    exact Nat.le_refl _
  | case2 => cases read
  | case3 n c char e step ih =>
    have used := left_of_next step
    have further := ih read
    omega

def window (c : Cursor) : List Char :=
  match c.peek 0 with
  | none => []
  | some char => char :: (c.peek 1).toList

def operatorAhead (c : Cursor) : Option Lexeme := (Lexeme.readOperator? c.window).map (·.1)

def readOperator (c : Cursor) : Except ReadFault (Option Token × Cursor) :=
  match c.operatorAhead with
  | none => .ok (none, c)
  | some lexeme => (c.advance lexeme.covered.length).map fun d => (some (lexeme.toToken c.place), d)

theorem left_of_readOperator {c d : Cursor} {t : Token} (read : c.readOperator = .ok (some t, d)) :
    d.left < c.left := by
  unfold readOperator at read
  split at read
  · cases read
  · rename_i seen
    obtain ⟨e, passed, same⟩ := ReadFault.ok_of_map read
    cases same
    obtain ⟨⟨lexeme, rest⟩, found, same⟩ := Option.map_eq_some_iff.1 seen
    cases same
    have whole := congrArg List.length (Lexeme.readOperator?_append found)
    have used := Lexeme.readOperator?_length_lt found
    rw [List.length_append] at whole
    have further : d.left + lexeme.covered.length ≤ c.left := left_of_advance passed
    omega

def matchOperator (c : Cursor) : Option Token × Cursor := c.readOperator.toOption.getD (none, c)

/-- Reads the inside of a string and the quote that closes it, and tells whether there is one. A
backslash protects the next character. -/
def readInside (c : Cursor) : Except ReadFault (List Char × Bool × Cursor) :=
  if c.atEnd then .ok ([], false, c)
  else match _read : c.next with
    | .error fault => .error fault
    | .ok (char, d) =>
      if c.peek 0 = some '\\' then
        if d.atEnd then .ok ([char], false, d)
        else match _shielded : d.next with
          | .error fault => .error fault
          | .ok (other, e) =>
            (readInside e).map fun (text, closed, f) => (char :: other :: text, closed, f)
      else if c.peek 0 = some '"' then .ok ([], true, d)
      else (readInside d).map fun (text, closed, f) => (char :: text, closed, f)
termination_by c.left
decreasing_by
  · exact Nat.lt_trans (left_of_next _shielded) (left_of_next _read)
  · exact left_of_next _read

theorem left_of_readInside {c d : Cursor} {text : List Char} {closed : Bool}
    (read : c.readInside = .ok (text, closed, d)) : d.left ≤ c.left := by
  fun_induction readInside c generalizing text with
  | case1 =>
    cases read
    exact Nat.le_refl _
  | case2 | case4 => cases read
  | case3 c more char e step _ _ | case6 c more char e step _ _ =>
    cases read
    exact Nat.le_of_lt (left_of_next step)
  | case5 c more char e step _ further other f shielded ih =>
    obtain ⟨⟨inside, ends, g⟩, rest, same⟩ := ReadFault.ok_of_map read
    cases same
    have used := Nat.lt_trans (left_of_next shielded) (left_of_next step)
    exact Nat.le_trans (ih rest) (Nat.le_of_lt used)
  | case7 c more char e step _ _ ih =>
    obtain ⟨⟨inside, ends, g⟩, rest, same⟩ := ReadFault.ok_of_map read
    cases same
    exact Nat.le_trans (ih rest) (Nat.le_of_lt (left_of_next step))

/-- Reads a string whose opening quote is taken to be the next character, whatever that is. -/
def readString (c : Cursor) (place : Place) : Except ReadFault (Token × Cursor) :=
  match c.next with
  | .error fault => .error fault
  | .ok (_, inside) => inside.readInside.map fun (text, closed, d) =>
    (if closed then ⟨.string, String.ofList text, place⟩
      else ⟨.illegal, String.ofList ('"' :: text), place⟩, d)

theorem left_of_readString {c d : Cursor} {place : Place} {t : Token}
    (read : c.readString place = .ok (t, d)) : d.left < c.left := by
  unfold readString at read
  split at read
  · cases read
  · rename_i step
    obtain ⟨⟨text, closed, e⟩, inside, same⟩ := ReadFault.ok_of_map read
    cases same
    exact Nat.lt_of_le_of_lt (left_of_readInside inside) (left_of_next step)

def readToken (c : Cursor) : Except ReadFault (Token × Cursor) :=
  if c.atEnd then .ok (Token.endAt c.place, c)
  else if (c.peek 0).any Lexeme.startsWord then
    (c.readWhile (·.any Lexeme.continuesWord)).map fun (word, d) =>
      (⟨Kind.ofWord (String.ofList word), String.ofList word, c.place⟩, d)
  else if (c.peek 0).any Text.isDigit then
    (c.readWhile (·.any Text.isDigit)).map fun (digits, d) =>
      (⟨.integer, String.ofList digits, c.place⟩, d)
  else if c.peek 0 = some '"' then c.readString c.place
  else match c.readOperator with
    | .error fault => .error fault
    | .ok (some token, d) => .ok (token, d)
    | .ok (none, _) => c.next.map fun (char, d) => (⟨.illegal, String.ofList [char], c.place⟩, d)

theorem left_of_readToken {c d : Cursor} {t : Token} (read : c.readToken = .ok (t, d))
    (kind : t.kind ≠ .eof) : d.left < c.left := by
  unfold readToken at read
  split at read
  · cases read
    exact absurd rfl kind
  · rename_i ended
    have more : c.atEnd = false := Bool.not_eq_true _ ▸ ended
    split at read
    · rename_i word
      obtain ⟨⟨text, e⟩, passed, same⟩ := ReadFault.ok_of_map read
      cases same
      obtain ⟨char, seen, starts⟩ := (Option.any_eq_true _ _).1 word
      refine (left_of_readWhile passed).2 more ?_
      rw [seen]
      exact Lexeme.continuesWord_of_startsWord starts
    · split at read
      · rename_i digit
        obtain ⟨⟨text, e⟩, passed, same⟩ := ReadFault.ok_of_map read
        cases same
        exact (left_of_readWhile passed).2 more digit
      · split at read
        · exact left_of_readString read
        · split at read
          · cases read
          · rename_i operator
            cases read
            exact left_of_readOperator operator
          · obtain ⟨⟨char, e⟩, step, same⟩ := ReadFault.ok_of_map read
            cases same
            exact left_of_next step

def nextToken (c : Cursor) : Except ReadFault (Token × Cursor) :=
  match c.skipLayout with
  | .error fault => .error fault
  | .ok d => d.readToken

theorem left_of_nextToken {c d : Cursor} {t : Token} (read : c.nextToken = .ok (t, d))
    (more : t.kind ≠ .eof) : d.left < c.left := by
  unfold nextToken at read
  split at read
  · cases read
  · rename_i passed
    exact Nat.lt_of_lt_of_le (left_of_readToken read more) (left_of_skipLayout passed)

def allTokens (c : Cursor) : Except ReadFault (List Token × Cursor) :=
  match _read : c.nextToken with
  | .error fault => .error fault
  | .ok (t, d) =>
    if _ended : t.kind = .eof then .ok ([t], d)
    else (allTokens d).map fun (ts, e) => (t :: ts, e)
termination_by c.left
decreasing_by exact left_of_nextToken _read _ended

end Cursor

end PrattFrontEnd
