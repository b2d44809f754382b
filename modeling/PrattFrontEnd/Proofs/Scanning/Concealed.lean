import PrattFrontEnd.Proofs.Recovery.Braces
import PrattFrontEnd.Proofs.Scanning.Tiling

/-!
Braces in a text and among its tokens. The scanner makes a token of every brace but those that stand
in comments, in strings and in what is illegal. Main statement: `braceBalance_eq`.
-/
namespace PrattFrontEnd

def braceBalance (text : List Char) : Int :=
  (text.count '\x7b' : Int) - (text.count '\x7d' : Int)

@[simp] theorem braceBalance_nil : braceBalance [] = 0 := rfl

@[simp] theorem braceBalance_append (text more : List Char) :
    braceBalance (text ++ more) = braceBalance text + braceBalance more := by
  simp only [braceBalance, List.count_append]
  omega

theorem braceBalance_of_plain {text : List Char} (opening : '\x7b' ∉ text)
    (closing : '\x7d' ∉ text) : braceBalance text = 0 := by
  rw [braceBalance, List.count_eq_zero_of_not_mem opening, List.count_eq_zero_of_not_mem closing]
  rfl

theorem braceBalance_of_all {p : Char → Bool} {text : List Char} (all : ∀ c ∈ text, p c = true)
    (opening : p '\x7b' = false) (closing : p '\x7d' = false) : braceBalance text = 0 := by
  apply braceBalance_of_plain
  · intro member
    rw [all _ member] at opening
    cases opening
  · intro member
    rw [all _ member] at closing
    cases closing

/-- The kinds of token that may hold braces without being one. -/
def Kind.conceals (k : Kind) : Bool := k = .string || k = .illegal

theorem Kind.braceBalance_name {k : Kind} (member : k ∈ operators) :
    braceBalance k.name.toList = -k.closing := by
  have each : ∀ k ∈ operators, braceBalance k.name.toList = -k.closing := by decide
  exact each k member

namespace Lexeme

theorem braceBalance_of_word {l : Lexeme} (word : l.Wordlike) : braceBalance l.value = 0 :=
  braceBalance_of_all word.all (by decide) (by decide)

theorem braceBalance_operator {k : Kind} (member : k ∈ Kind.operators) {value : List Char}
    (spelled : value = k.name.toList) : braceBalance (covered ⟨k, value⟩) = -k.closing := by
  rw [spelled, covered_operator member]
  exact Kind.braceBalance_name member

theorem Fits.braceBalance {l : Lexeme} {before rest : List Char} (fits : l.Fits before rest)
    (plain : l.kind.conceals = false) : braceBalance l.covered = -l.kind.closing := by
  obtain ⟨kind, value⟩ := l
  cases kind with
  | identifier | functionWord | letWord | trueWord | falseWord | ifWord | elseWord | returnWord =>
    exact braceBalance_of_word fits.1
  | integer => exact braceBalance_of_all fits.2.1 (by decide) (by decide)
  | string | illegal => cases plain
  | eof | other => exact fits.elim
  | assign | bang => exact braceBalance_operator (by decide) fits.1
  | _ => exact braceBalance_operator (by decide) fits

end Lexeme

/-- The part of a text that is layout or belongs to a string or to an illegal token. -/
def Scanner.concealed (s : Scanner) : List Char :=
  let result := s.next
  let gap := (Layout.divide false s.rest).1
  if _more : result.1.kind = .eof then gap
  else
    gap ++ (if result.1.kind.conceals then result.1.lexeme.covered else []) ++ concealed result.2
termination_by s.rest.length
decreasing_by exact next_length_lt _more

namespace Scanner

variable {s : Scanner}

theorem concealed_of_ended (ended : s.next.1.kind = .eof) :
    s.concealed = (Layout.divide false s.rest).1 := by
  rw [concealed]
  exact dif_pos ended

theorem concealed_of_more (more : s.next.1.kind ≠ .eof) :
    s.concealed = (Layout.divide false s.rest).1 ++
      (if s.next.1.kind.conceals then s.next.1.lexeme.covered else []) ++ s.next.2.concealed := by
  rw [concealed]
  exact dif_neg more

theorem rest_of_ended (ended : s.next.1.kind = .eof) : s.rest = (Layout.divide false s.rest).1 := by
  have whole := Layout.divide_append false s.rest
  unfold next at ended
  cases behind : (Layout.divide false s.rest).2 with
  | nil =>
    rw [behind, List.append_nil] at whole
    exact whole.symm
  | cons c cs =>
    simp only [behind] at ended
    exact absurd ended (Lexeme.read_kind_ne_eof c cs)

theorem rest_of_more (more : s.next.1.kind ≠ .eof) :
    s.rest = (Layout.divide false s.rest).1 ++ (s.next.1.lexeme.covered ++ s.next.2.rest) := by
  have whole := Layout.divide_append false s.rest
  unfold next at more ⊢
  cases behind : (Layout.divide false s.rest).2 with
  | nil =>
    simp only [behind] at more
    exact absurd rfl more
  | cons c cs =>
    simp only [behind, Lexeme.lexeme_toToken, Lexeme.read_append] at whole ⊢
    exact whole.symm

theorem fits_of_more (more : s.next.1.kind ≠ .eof) : ∃ rest, s.next.1.lexeme.Fits [] rest := by
  obtain ⟨_, ended⟩ | ⟨gap, c, cs, _, _, bare, noComment, same⟩ := s.next_cases
  · rw [ended] at more
    exact absurd rfl more
  · refine ⟨(Lexeme.read c cs).2, ?_⟩
    rw [same, Lexeme.lexeme_toToken]
    exact Lexeme.fits_of_read bare noComment fun _ last => absurd last (Option.not_mem_none _)

theorem braceBalance_next (more : s.next.1.kind ≠ .eof) :
    braceBalance s.next.1.lexeme.covered =
      braceBalance (if s.next.1.kind.conceals then s.next.1.lexeme.covered else []) -
        s.next.1.kind.closing := by
  cases conceals : s.next.1.kind.conceals with
  | true =>
    have none : s.next.1.kind.closing = 0 := by
      simp only [Kind.conceals, Bool.or_eq_true, decide_eq_true_eq] at conceals
      rcases conceals with kind | kind <;> rw [kind] <;> rfl
    simp [none]
  | false =>
    obtain ⟨rest, fits⟩ := fits_of_more more
    have own : braceBalance s.next.1.lexeme.covered = -s.next.1.kind.closing :=
      fits.braceBalance conceals
    simp [own]

theorem braceBalance_rest (s : Scanner) :
    braceBalance s.rest = braceBalance s.concealed - surplus s.tokens := by
  fun_induction tokens s with
  | case1 s result ended =>
    have silent : surplus [s.next.1] = 0 := by
      simp [show s.next.1.kind = .eof from ended, Kind.closing]
    rw [silent, concealed_of_ended ended, ← rest_of_ended ended]
    simp
  | case2 s result more ih =>
    have token := braceBalance_next more
    have behind : braceBalance s.next.2.rest =
        braceBalance s.next.2.concealed - surplus s.next.2.tokens := ih
    show braceBalance s.rest =
      braceBalance s.concealed - (s.next.1.kind.closing + surplus s.next.2.tokens)
    rw [rest_of_more more, concealed_of_more more]
    simp only [braceBalance_append]
    omega

end Scanner

def concealed (source : String) : List Char := (Scanner.ofString source).concealed

/-- The braces of a source text are its tokens and those that stand in comments, in strings and in
what is illegal. -/
theorem braceBalance_eq (source : String) :
    braceBalance source.toList = braceBalance (concealed source) - surplus (tokenize source) :=
  (Scanner.ofString source).braceBalance_rest

end PrattFrontEnd
