import PrattFrontEnd.Proofs.Parser.Window
import PrattFrontEnd.Proofs.Scanning.ReadBack

/-!
Scanning piece by piece. A text scans as some lexemes before a rest when reading them, with layout
of blanks between, leads to that rest; the rest is there while the lexemes are read, so that pieces
can be put together. Main statement: `delivers_of_scans`.
-/
namespace PrattFrontEnd

def Token.lexeme (t : Token) : Lexeme := ⟨t.kind, t.text.toList⟩

@[simp] theorem Lexeme.lexeme_toToken (l : Lexeme) (place : Place) :
    (l.toToken place).lexeme = l := by
  simp [Token.lexeme, Lexeme.toToken]

/-- From the first text to the last one, reading the lexemes on the way. -/
inductive Scans : List Char → List Lexeme → List Char → Prop where
  | done {rest : List Char} : Scans rest [] rest
  | blank {c : Char} {cs rest : List Char} {ls : List Lexeme} (blank : Layout.isBlank c = true)
      (further : Scans cs ls rest) : Scans (c :: cs) ls rest
  | lexeme {c : Char} {cs tail rest : List Char} {l : Lexeme} {ls : List Lexeme}
      (bare : Layout.isBlank c = false) (noComment : c ≠ '#')
      (next : Lexeme.read c cs = (l, tail)) (further : Scans tail ls rest) :
      Scans (c :: cs) (l :: ls) rest

theorem Lexeme.starts_bare {c : Char} {cs tail : List Char} {l : Lexeme}
    (next : read c cs = (l, tail)) (legal : l.kind ≠ .illegal) :
    Layout.isBlank c = false ∧ c ≠ '#' := by
  have reads : ∀ d ∈ [' ', '\t', '\r', '\n', '#'], c ≠ d := by
    intro d member same
    simp only [List.mem_cons, List.not_mem_nil, or_false] at member
    have illegal : (read c cs).1.kind = .illegal := by
      rw [same]
      rcases member with rfl | rfl | rfl | rfl | rfl <;> cases cs <;> rfl
    rw [next] at illegal
    exact legal illegal
  simp only [List.forall_mem_cons] at reads
  simp [Layout.isBlank, reads]

theorem Scans.legible {l : Lexeme} {ls : List Lexeme} {tail rest : List Char}
    (legible : l.Legible) (ends : l.EndsBefore tail) (further : Scans tail ls rest) :
    Scans (l.covered ++ tail) (l :: ls) rest := by
  obtain ⟨c, cs, split, next⟩ := Lexeme.read_back legible ends
  obtain ⟨bare, noComment⟩ := Lexeme.starts_bare next legible.1
  rw [split]
  exact .lexeme bare noComment next further

namespace Scanner

theorem next_blank {c : Char} (blank : Layout.isBlank c = true) (cs : List Char) (place : Place) :
    (⟨c :: cs, place⟩ : Scanner).next = (⟨cs, place.step c⟩ : Scanner).next := by
  simp only [Scanner.next, Layout.divide_blank blank, Place.past_cons]

theorem next_lexeme {c : Char} {cs tail : List Char} {l : Lexeme}
    (bare : Layout.isBlank c = false) (noComment : c ≠ '#')
    (next : Lexeme.read c cs = (l, tail)) (place : Place) :
    (⟨c :: cs, place⟩ : Scanner).next = (l.toToken place, ⟨tail, place.past l.covered⟩) := by
  simp only [Scanner.next, Layout.divide_bare bare noComment, next, Place.past_nil]

theorem next_of_ended {s : Scanner} (ended : s.next.1.kind = .eof) :
    ∃ place, s.next = (Token.endAt place, ⟨[], place⟩) := by
  unfold next at ended ⊢
  cases behind : (Layout.divide false s.rest).2 with
  | nil => exact ⟨s.place.past (Layout.divide false s.rest).1, by simp only [behind]⟩
  | cons c cs =>
    simp only [behind] at ended
    exact absurd ended (Lexeme.read_kind_ne_eof c cs)

theorem spent_of_nil (place : Place) : (Source.scanner ⟨[], place⟩).Spent := ⟨rfl, rfl⟩

end Scanner

theorem delivers_of_next {s s' : Source} (same : s.next = s'.next) {ts : List Token}
    (delivers : s'.Delivers ts) : s.Delivers ts := by
  cases ts with
  | nil => exact ⟨by rw [same]; exact delivers.1, by rw [same]; exact delivers.2⟩
  | cons t ts =>
    simp only [Source.Delivers] at delivers ⊢
    rw [same]
    exact delivers

theorem delivers_of_scans {text : List Char} {ls : List Lexeme} (scans : Scans text ls [])
    (place : Place) :
    ∃ ts, (Source.scanner ⟨text, place⟩).Delivers ts ∧ ts.map Token.lexeme = ls := by
  generalize ended : ([] : List Char) = rest at scans
  induction scans generalizing place with
  | done =>
    cases ended
    exact ⟨[], Scanner.spent_of_nil place, rfl⟩
  | @blank c cs rest ls blank further ih =>
    obtain ⟨ts, delivers, same⟩ := ih (place.step c) ended
    refine ⟨ts, delivers_of_next ?_ delivers, same⟩
    simp only [Source.next, Scanner.next_blank blank]
  | @lexeme c cs tail rest l ls bare noComment next further ih =>
    obtain ⟨ts, delivers, same⟩ := ih (place.past l.covered) ended
    have read := Scanner.next_lexeme bare noComment next place
    have more : l.kind ≠ .eof := by
      have kind := Lexeme.read_kind_ne_eof c cs
      rw [next] at kind
      exact kind
    refine ⟨l.toToken place :: ts, ⟨?_, more, ?_⟩, ?_⟩
    · simp only [Source.next, read]
    · simp only [Source.next, read]
      exact delivers
    · rw [List.map_cons, same, Lexeme.lexeme_toToken]

theorem tokens_of_delivers {s : Scanner} {ts : List Token}
    (delivers : (Source.scanner s).Delivers ts) : ∃ last, s.tokens = ts ++ [last] := by
  induction ts generalizing s with
  | nil => exact ⟨s.next.1, Scanner.tokens_of_ended delivers.1⟩
  | cons t ts ih =>
    obtain ⟨first, more, further⟩ := delivers
    obtain ⟨last, rest⟩ := ih (s := s.next.2) further
    have head : s.next.1 = t := first
    refine ⟨last, ?_⟩
    rw [Scanner.tokens_of_more (by rw [head]; exact more), head, rest, List.cons_append]

end PrattFrontEnd
