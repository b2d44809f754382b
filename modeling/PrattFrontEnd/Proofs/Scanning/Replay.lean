import Mathlib.Logic.Function.Iterate
import PrattFrontEnd.Proofs.Parser.Alongside

/-!
Scanning while parsing, and parsing a list of tokens that were scanned before. Both deliver the same
stream: the tokens of the text, and then the end token where the scanner stands, for ever. Main
statement: `replayed_tokens_parse_like_text`.
-/
namespace PrattFrontEnd

open PrattFrontEnd.Parser

theorem Scanner.upcoming_tokens (s : Scanner) :
    ∃ ts place, s.tokens = ts ++ [Token.endAt place] ∧
      (Source.scanner s).upcoming = ts ++ₛ Stream'.const (Token.endAt place) := by
  fun_induction tokens s with
  | case1 s result ended =>
    obtain ⟨place, next⟩ := next_of_ended ended
    have last : result.1 = Token.endAt place := congrArg Prod.fst next
    have spent : (Source.scanner s.next.2).upcoming = Stream'.const (Token.endAt place) := by
      rw [next]
      exact Source.upcoming_spent (spent_of_nil place)
    refine ⟨[], place, by rw [last]; rfl, ?_⟩
    rw [Source.upcoming_eq, Stream'.nil_append_stream, Stream'.const_eq, ← spent, ← last]
    rfl
  | case2 s result more ih =>
    obtain ⟨ts, place, tokens, behind⟩ := ih
    refine ⟨result.1 :: ts, place, congrArg (result.1 :: ·) tokens, ?_⟩
    rw [Source.upcoming_eq, Stream'.cons_append_stream, ← behind]
    rfl

namespace Parser

theorem upcoming_iterate (p : Parser) (moves : Nat) :
    (advance^[moves] p).upcoming = p.upcoming.drop moves := by
  induction moves generalizing p with
  | zero => rfl
  | succ moves ih => rw [Function.iterate_succ_apply, ih, upcoming_advance, Stream'.drop_succ]

/-- Two parsers that show the same tokens, at the same places, after every move, and whose runs come to
the same program and the same diagnostics. -/
structure Mirrors (p q : Parser) : Prop where
  current : ∀ moves, (advance^[moves] p).current = (advance^[moves] q).current
  peek : ∀ moves, (advance^[moves] p).peek = (advance^[moves] q).peek
  program : p.run.program = q.run.program
  diagnostics : p.run.diagnostics = q.run.diagnostics

theorem mirrors_of_upcoming {s s' : Source} (same : s.upcoming = s'.upcoming) (maxDepth : Int) :
    (onSource s maxDepth).Mirrors (onSource s' maxDepth) := by
  have coming : (onSource s maxDepth).upcoming = (onSource s' maxDepth).upcoming := by
    rw [upcoming_onSource, upcoming_onSource, same]
  have later : ∀ moves, (advance^[moves] (onSource s maxDepth)).upcoming =
      (advance^[moves] (onSource s' maxDepth)).upcoming := by
    intro moves
    rw [upcoming_iterate, upcoming_iterate, coming]
  have alike : Likeness.equal.Throughout (onSource s maxDepth).upcoming
      (onSource s' maxDepth).upcoming := by
    intro n
    rw [coming]
    rfl
  obtain ⟨statements, diagnostics⟩ := run_alike (kin_onSource s s' maxDepth) alike
  exact {
    current := fun moves => congrArg Stream'.head (later moves)
    peek := fun moves => congrArg (fun σ => σ.tail.head) (later moves)
    program := congrArg Program.mk (Likeness.stmts_eq statements)
    diagnostics := diagnostics }

end Parser

theorem Source.upcoming_ended (tokens : List Token) (place : Place) :
    (Source.ofList (tokens ++ [Token.endAt place])).upcoming =
      tokens ++ₛ Stream'.const (Token.endAt place) := by
  have last : finish (tokens ++ [Token.endAt place]) = Token.endAt place :=
    finish_append tokens (List.cons_ne_nil _ _)
  have listed := upcoming_buffer 0 (tokens ++ [Token.endAt place])
    (TokenBuffer.ofList (tokens ++ [Token.endAt place])).closing
  rw [finish] at last
  rw [last, Stream'.append_append_stream, Stream'.cons_append_stream, Stream'.nil_append_stream,
    ← Stream'.const_eq] at listed
  exact listed

theorem Likeness.throughout_append {like : Likeness} (tokens : List Token)
    (refl : ∀ t, like.token t t) {σ τ : Stream' Token} (alike : like.Throughout σ τ) :
    like.Throughout (tokens ++ₛ σ) (tokens ++ₛ τ) := by
  induction tokens with
  | nil => exact alike
  | cons t ts ih =>
    intro n
    cases n with
    | zero => exact refl t
    | succ n => exact ih n

/-- A text parsed while it is scanned, the list of its tokens, and that list in a buffer show the same
window after every move, also past the end, and give the same program and the same diagnostics. The
list without its end token still gives an equal program, rendered the same, and the same
diagnostics. -/
theorem replayed_tokens_parse_like_text (source : String) (maxDepth : Int) :
    (Parser.ofList (tokenize source) maxDepth).Mirrors (Parser.ofString source maxDepth) ∧
      (Parser.onSource (.buffer (TokenBuffer.ofList (tokenize source))) maxDepth).Mirrors
        (Parser.ofString source maxDepth) ∧
      (Parser.ofList (tokenize source).dropLast maxDepth).run.program.same
        (Parser.ofString source maxDepth).run.program = true ∧
      (Parser.ofList (tokenize source).dropLast maxDepth).run.program.render =
        (Parser.ofString source maxDepth).run.program.render ∧
      (Parser.ofList (tokenize source).dropLast maxDepth).run.diagnostics =
        (Parser.ofString source maxDepth).run.diagnostics := by
  obtain ⟨ts, place, tokens, stream⟩ := (Scanner.ofString source).upcoming_tokens
  have scanned : (Source.ofString source).upcoming = ts ++ₛ Stream'.const (Token.endAt place) := stream
  have listed : (Source.ofList (tokenize source)).upcoming = (Source.ofString source).upcoming := by
    rw [scanned, ← Source.upcoming_ended ts place, ← tokens]
    rfl
  have mirrors := mirrors_of_upcoming listed maxDepth
  refine ⟨mirrors, mirrors, ?_⟩
  have short : (tokenize source).dropLast = ts := by
    rw [tokenize, tokens, List.dropLast_concat]
  have alike : Likeness.shown.Throughout (Parser.ofList ts maxDepth).upcoming
      (Parser.ofString source maxDepth).upcoming := by
    rw [upcoming_ofList, Parser.ofString, upcoming_onSource, scanned]
    exact Likeness.throughout_append ts (fun _ => rfl) fun _ => rfl
  obtain ⟨statements, diagnostics⟩ := run_alike (kin_onSource _ _ maxDepth) alike
  obtain ⟨same, rendering⟩ := Program.shown_alike statements
  rw [short]
  exact ⟨same, rendering, diagnostics⟩

end PrattFrontEnd
