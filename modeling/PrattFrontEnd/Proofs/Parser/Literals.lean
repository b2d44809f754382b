import PrattFrontEnd.Proofs.Parser.Interruption
import PrattFrontEnd.Proofs.Parser.Success
import PrattFrontEnd.Proofs.Rendering.Composition
import PrattFrontEnd.Proofs.Scanning.Scans
import PrattFrontEnd.Proofs.Text.Numeral

/-!
Integer literals as whole source texts. A run over one token comes down to the rule for that token,
whether the operand for it is given up or not. Main statement:
`integer_literals_are_exact_up_to_digit_limit`.
-/
namespace PrattFrontEnd

open PrattFrontEnd.Parser Rule Expression Statement

namespace Text

theorem isAscii_of_digit {c : Char} (digit : c.isDigit = true) : isAscii c = true := by
  have bounds := digit_bounds digit
  exact decide_eq_true (by omega)

theorem isAlpha_of_digit {c : Char} (digit : c.isDigit = true) : c.isAlpha = false := by
  have bounds := digit_bounds digit
  have value : c.toNat = c.val.toNat := rfl
  have upper : ¬ (65 ≤ c.val.toNat ∧ c.val.toNat ≤ 90) := by omega
  have lower : ¬ 97 ≤ c.val.toNat := by omega
  change (decide (65 ≤ c.val.toNat ∧ c.val.toNat ≤ 90) ||
    (decide (97 ≤ c.val.toNat) && decide (c.val.toNat ≤ 122))) = false
  rw [decide_eq_false upper, decide_eq_false lower]
  rfl

theorem isDigit_of_digit {c : Char} (digit : c.isDigit = true) : isDigit c = true := by
  rw [isDigit, if_pos (isAscii_of_digit digit)]
  exact digit

theorem isPrintable_of_digit {c : Char} (digit : c.isDigit = true) : isPrintable c = true := by
  have bounds := digit_bounds digit
  rw [isPrintable, if_pos (isAscii_of_digit digit), Bool.and_eq_true]
  exact ⟨decide_eq_true (by omega), decide_eq_true (by omega)⟩

theorem ne_of_digit {c d : Char} (digit : c.isDigit = true) (other : d.isDigit = false) : c ≠ d := by
  intro same
  rw [← same, digit] at other
  cases other

theorem quotedChar_of_digit {c : Char} (digit : c.isDigit = true) : quotedChar '\'' c = [c] := by
  have plain : ∀ d ∈ ['\'', '\\', '\n', '\r', '\t'], c ≠ d := by
    intro d member
    have other : ∀ e ∈ ['\'', '\\', '\n', '\r', '\t'], e.isDigit = false := by simp
    exact ne_of_digit digit (other d member)
  simp only [List.forall_mem_cons] at plain
  simp [quotedChar, plain, isPrintable_of_digit digit]

theorem quotedChars_of_digits {digits : List Char} (all : digits.all Char.isDigit = true) :
    quotedChars digits = '\'' :: digits ++ ['\''] := by
  have each : ∀ c ∈ digits, c.isDigit = true := List.all_eq_true.1 all
  have quote : quoteFor digits = '\'' := by
    have none : '\'' ∉ digits := fun member => ne_of_digit (each _ member) (by decide) rfl
    simp [quoteFor, none]
  have kept : digits.map (quotedChar '\'') = digits.map fun c => [c] :=
    List.map_congr_left fun c member => quotedChar_of_digit (each c member)
  rw [quotedChars, quote, List.flatMap_def, kept, ← List.flatMap_def, List.flatMap_singleton']

end Text

namespace Lexeme

theorem startsWord_of_digit {c : Char} (digit : c.isDigit = true) : startsWord c = false := by
  have mark : c ≠ '_' := Text.ne_of_digit digit (by decide)
  rw [startsWord, Text.isLetter, if_pos (Text.isAscii_of_digit digit), Text.isAlpha_of_digit digit]
  simp [mark]

theorem read_digits {c : Char} {cs : List Char} (all : (c :: cs).all Char.isDigit = true) :
    read c cs = (⟨.integer, c :: cs⟩, []) := by
  rw [List.all_cons, Bool.and_eq_true] at all
  have digits : ∀ d ∈ cs, Text.isDigit d = true := fun d member =>
    Text.isDigit_of_digit (List.all_eq_true.1 all.2 d member)
  obtain ⟨taken, dropped⟩ : (cs ++ []).takeWhile Text.isDigit = cs ∧
      (cs ++ []).dropWhile Text.isDigit = [] :=
    takeWhile_append digits fun d front => by cases front
  rw [List.append_nil] at taken dropped
  rw [read, startsWord_of_digit all.1, if_neg Bool.false_ne_true,
    if_pos (Text.isDigit_of_digit all.1), taken, dropped]

end Lexeme

def Token.numeral (digits : List Char) : Token := ⟨.integer, String.ofList digits, ⟨1, 1⟩⟩

theorem tokenize_digits {digits : List Char} (some : digits ≠ [])
    (all : digits.all Char.isDigit = true) :
    ∃ place, tokenize (String.ofList digits) = [Token.numeral digits, Token.endAt place] ∧
      (Source.ofString (String.ofList digits)).Delivers [Token.numeral digits] := by
  obtain ⟨c, cs, rfl⟩ := List.exists_cons_of_ne_nil some
  have read := Lexeme.read_digits all
  obtain ⟨bare, noComment⟩ := Lexeme.starts_bare read Kind.noConfusion
  have next : (Scanner.ofString (String.ofList (c :: cs))).next =
      (Token.numeral (c :: cs), ⟨[], Place.past ⟨1, 1⟩ (c :: cs)⟩) := by
    rw [Scanner.ofString, Scanner.ofText, String.toList_ofList]
    exact Scanner.next_lexeme bare noComment read ⟨1, 1⟩
  have spent := Scanner.spent_of_nil (Place.past ⟨1, 1⟩ (c :: cs))
  refine ⟨Place.past ⟨1, 1⟩ (c :: cs), ?_, ?_⟩
  · rw [tokenize, Scanner.tokens_of_more (by rw [next]; exact Kind.noConfusion), next,
      Scanner.tokens_of_ended spent.1]
    rfl
  · refine ⟨congrArg Prod.fst next, Kind.noConfusion, ?_⟩
    show (Source.scanner (Scanner.ofString (String.ofList (c :: cs))).next.2).Delivers []
    rw [next]
    exact spent

namespace Parser

variable {p : Parser} {t : Token}

theorem goes_of_lone (on : p.On [t]) : ¬ endsProgram p.current.kind = true := by
  rw [on.1]
  simpa [endsProgram] using on.2.1

theorem closed_behind_lone (on : p.On [t]) : endsProgram p.advance.current.kind = true := by
  have ended : p.peek.kind = .eof := on.2.2.1
  rw [advance_current, ended]
  rfl

theorem run_of_lone_built (ready : p.Ready) (on : p.On [t]) (fresh : p.log = []) {s : Stmt}
    (built : any p.operand p = (.ok s, p)) : p.run = ⟨⟨[s]⟩, [], [.parsed 1 0]⟩ := by
  have steps := statements_built (steady_within p.levels) rfl ready.rounds (goes_of_lone on) built
  rw [statements_closed (closed_behind_lone on)] at steps
  rw [run_of_statements steps]
  simp [diagnostics, fresh]

theorem statements_of_lone_dropped {operand : Operand} (steady : ∀ bound, (operand bound).Steady)
    (ready : p.Ready) (on : p.On [t]) {failure : Failure}
    (failed : any operand p = (.error failure, p.report failure)) :
    statements operand endsProgram p =
      ([], ((p.report failure).note (.skipping t)).advance) := by
  have ended : p.peek.kind = .eof := on.2.2.1
  have skipped : (p.report failure).synchronize = (p.report failure).note (.skipping t) := by
    rw [synchronize, skipStatement, if_neg, dif_pos]
    · rw [show (p.report failure).current = t from on.1]
    · exact ended
    · exact fun done => goes_of_lone on (by rw [show p.current.kind = .eof from done]; rfl)
  have closed : endsProgram ((p.report failure).note (.skipping t)).advance.current.kind = true :=
    closed_behind_lone on
  rw [statements_dropped steady rfl ready.rounds (goes_of_lone on) failed, skipped,
    statements_closed closed]

theorem run_of_lone_dropped (ready : p.Ready) (on : p.On [t]) (fresh : p.log = [])
    {failure : Failure} (failed : any p.operand p = (.error failure, p.report failure)) :
    p.run = ⟨⟨[]⟩, [failure.diagnostic], [.reported failure, .skipping t, .parsed 0 1]⟩ := by
  rw [run_of_statements (statements_of_lone_dropped (steady_within p.levels) ready on failed)]
  simp [diagnostics, report, note, fresh, Event.failure?]

theorem expression_failed {operand : Operand} {failure : Failure} {q : Parser}
    (failed : operand .lowest p = (.error failure, q)) :
    expression operand p = (.error failure, q) := by
  rw [expression, here_bind, bind_of_error failed]

theorem any_of_other (binds : p.current.kind ≠ .letWord) (returns : p.current.kind ≠ .returnWord)
    (operand : Operand) : any operand p = expression operand p := by
  unfold any
  split
  · rename_i kind
    exact absurd kind binds
  · rename_i kind
    exact absurd kind returns
  · rfl

theorem operand_of_start (room : 0 < p.levels) {result : Except Failure Expr} {log : List Event}
    (built : start (within (p.levels - 1)) .lowest { p with depth := p.depth + 1 } =
      (result, { p with depth := p.depth + 1, log := log })) :
    p.operand .lowest p = (result, { p with log := log }) := by
  obtain ⟨levels, more⟩ : ∃ levels, p.levels = levels + 1 := ⟨p.levels - 1, by omega⟩
  rw [more, Nat.add_sub_cancel] at built
  rw [operand, more, within_eq, built]
  rfl

theorem start_of_integer (ready : p.Ready) (kind : p.current.kind = .integer) (levels : Nat) :
    start (within levels) .lowest { p with depth := p.depth + 1 } =
      (integer >>= onward (within levels) .lowest) { p with depth := p.depth + 1 } := by
  have opens : p.table.opening p.current.kind = some .integer := by
    rw [ready.table, kind]
    rfl
  exact start_opened (p := { p with depth := p.depth + 1 }) (steady_within levels) opens .lowest

theorem any_of_integer_bad (ready : p.Ready) (room : 0 < p.levels)
    (kind : p.current.kind = .integer) (bad : integerValue? p.current.text = none) :
    any p.operand p = (.error ⟨.badInteger p.current.text, p.current⟩,
      p.report ⟨.badInteger p.current.text, p.current⟩) := by
  rw [any_of_other (by rw [kind]; decide) (by rw [kind]; decide)]
  apply expression_failed
  apply operand_of_start room
  rw [start_of_integer ready kind]
  apply bind_of_error
  simp only [integer, bad]
  rfl

theorem any_of_integer (ready : p.Ready) (room : 0 < p.levels) (on : p.On [t])
    (kind : t.kind = .integer) {value : Nat} (read : integerValue? t.text = some value) :
    any p.operand p = (.ok (.expression t (.integer t value)), p) := by
  have front : p.current = t := on.1
  have ended : p.peek.kind = .eof := on.2.2.1
  have built : p.operand .lowest p = (.ok (.integer t value), p) := by
    apply operand_of_start room
    rw [start_of_integer ready (by rw [front]; exact kind)]
    have first : integer { p with depth := p.depth + 1 } =
        (.ok (.integer t value), { p with depth := p.depth + 1 }) := by
      simp only [integer, front, read]
    rw [bind_of_ok first]
    apply onward_stop
    simp only [continues, peekPrecedence, ready.table, ended]
    decide
  rw [any_of_opening .integer (by rw [front, kind]; rfl), expression_eq_ok]
  refine ⟨.integer t value, p, built, by rw [front], ?_⟩
  rw [pastSemicolon, if_neg (by rw [ended]; decide)]

theorem run_of_lone_integer (ready : p.Ready) (room : 0 < p.levels) (on : p.On [t])
    (fresh : p.log = []) (kind : t.kind = .integer) :
    p.run =
      match integerValue? t.text with
      | some value => ⟨⟨[.expression t (.integer t value)]⟩, [], [.parsed 1 0]⟩
      | none =>
        ⟨⟨[]⟩, [.badInteger t.text],
          [.reported ⟨.badInteger t.text, t⟩, .skipping t, .parsed 0 1]⟩ := by
  have front : p.current = t := on.1
  cases read : integerValue? t.text with
  | some value => exact run_of_lone_built ready on fresh (any_of_integer ready room on kind read)
  | none =>
    rw [← front] at kind read
    have failed := any_of_integer_bad ready room kind read
    rw [front] at failed
    exact run_of_lone_dropped ready on fresh failed

theorem read_of_lone_integer (ready : p.Ready) (room : 0 < p.levels) (on : p.On [t])
    (fresh : p.log = []) (kind : t.kind = .integer) :
    p.read =
      match Expression.conversionFault? t.text with
      | some fault => .error ⟨fault, []⟩
      | none => .ok p.run := by
  have front : p.current = t := on.1
  cases readable : Expression.conversionFault? t.text with
  | none =>
    have legible : ∀ u ∈ [t], u.kind = .integer → Expression.conversionFault? u.text = none := by
      intro u member _
      rw [List.mem_singleton.1 member]
      exact readable
    rw [read_of_legible fun s reaches => conversionFault?_of_on ready on legible reaches,
      run_of_lone_integer ready room on fresh kind]
    cases integerValue? t.text with
    | some value => rfl
    | none => simp [Parsed.unlessBroken, Interruption.inLog?, Event.breaks?, readable]
  | some fault =>
    obtain ⟨levels, more⟩ : ∃ levels, p.levels = levels + 1 := ⟨p.levels - 1, by omega⟩
    have stuck : p.conversionFault?.isSome = true := by
      rw [conversionFault?_of_integer ready (by rw [front]; exact kind), front, readable]
      rfl
    have failed : any (Expression.readable p.levels) p =
        (.error ⟨.badInteger p.current.text, p.current⟩,
          p.report ⟨.badInteger p.current.text, p.current⟩) := by
      rw [any_of_other (by rw [front, kind]; decide) (by rw [front, kind]; decide), more]
      exact expression_failed (readable_given_up stuck)
    rw [front] at failed
    have steps := statements_of_lone_dropped (steady_readable p.levels) ready on failed
    rw [read_of_statements steps]
    simp [Parsed.unlessBroken, Interruption.inLog?, Event.breaks?, readable, report, note, fresh]

end Parser

section

variable {digits : List Char} (nonempty : digits ≠ []) (all : digits.all Char.isDigit = true)
variable {maxDepth : Int} (room : 1 ≤ maxDepth)

include room in
theorem Parser.levels_pos (source : Source) : 0 < (onSource source maxDepth).levels := by
  rw [levels_onSource]
  omega

include nonempty all room

theorem parse_digits :
    parse (String.ofList digits) maxDepth =
      match integerValue? (String.ofList digits) with
      | some value =>
        ⟨⟨[.expression (.numeral digits) (.integer (.numeral digits) value)]⟩, [], [.parsed 1 0]⟩
      | none =>
        ⟨⟨[]⟩, [.badInteger (String.ofList digits)],
          [.reported ⟨.badInteger (String.ofList digits), .numeral digits⟩,
            .skipping (.numeral digits), .parsed 0 1]⟩ := by
  obtain ⟨_, _, delivers⟩ := tokenize_digits nonempty all
  have on := on_onSource maxDepth delivers
  have run := run_of_lone_integer (ready_onSource _ _) (levels_pos room _) on rfl rfl
  exact run

theorem readProgram_digits :
    readProgram (String.ofList digits) maxDepth =
      match conversionFault? (String.ofList digits) with
      | some fault => .error ⟨fault, []⟩
      | none => .ok (parse (String.ofList digits) maxDepth) := by
  obtain ⟨_, _, delivers⟩ := tokenize_digits nonempty all
  have on := on_onSource maxDepth delivers
  exact read_of_lone_integer (ready_onSource _ _) (levels_pos room _) on rfl rfl

end

theorem Expr.render_integer (t : Token) (value : Int) : (Expr.integer t value).render = t.text := by
  simp [Expr.render_eq, Expr.parts]

theorem integer_of_no_numeral {p : Parser}
    (other : ¬ (p.current.text.toList ≠ [] ∧ p.current.text.toList.all Char.isDigit = true)) :
    conversionFault? p.current.text = none ∧
      integer p = (.error ⟨.badInteger p.current.text, p.current⟩,
        p.report ⟨.badInteger p.current.text, p.current⟩) := by
  constructor
  · rw [conversionFault?_eq, if_neg]
    intro ⟨⟨digits, _⟩, many⟩
    have empty : p.current.text.toList = [] := by
      by_contra nonempty
      exact other ⟨nonempty, digits⟩
    simp [empty] at many
  · have bad : integerValue? p.current.text = none := by
      rw [Option.eq_none_iff_forall_ne_some]
      intro value read
      exact other (integerValue?_eq_some_iff.1 read).1
    simp only [integer, bad]
    rfl

theorem message_of_digits {digits : List Char} (all : digits.all Char.isDigit = true) :
    (Diagnostic.badInteger (String.ofList digits)).message =
      "could not parse '" ++ String.ofList digits ++ "' as integer" := by
  have spelled : (Diagnostic.badInteger (String.ofList digits)).message =
      "could not parse " ++ Text.quoted (String.ofList digits) ++ " as integer" := rfl
  rw [spelled]
  apply String.toList_injective
  simp [Text.quoted, Text.quotedChars_of_digits all]

section

variable {digits : List Char} (nonempty : digits ≠ []) (all : digits.all Char.isDigit = true)
variable {maxDepth : Int} (room : 1 ≤ maxDepth)

include nonempty all room

theorem reads_in_range (fits : Text.digitsValue digits ≤ 2 ^ 63 - 1)
    (short : digits.length ≤ Text.digitLimit) :
    readProgram (String.ofList digits) maxDepth =
      .ok ⟨⟨[.expression (.numeral digits) (.integer (.numeral digits) (Text.digitsValue digits))]⟩,
        [], [.parsed 1 0]⟩ := by
  have read : integerValue? (String.ofList digits) = some (Text.digitsValue digits) := by
    rw [integerValue?_eq_some_iff, String.toList_ofList]
    exact ⟨⟨nonempty, all⟩, fits, rfl⟩
  have readable : conversionFault? (String.ofList digits) = none := by
    rw [conversionFault?_eq, if_neg]
    rw [String.toList_ofList]
    omega
  rw [readProgram_digits nonempty all room, readable, parse_digits nonempty all room, read]

theorem refuses_out_of_range (large : 2 ^ 63 - 1 < Text.digitsValue digits)
    (readable : digits.length ≤ Text.digitLimit ∨ 19 < (digits.dropWhile (· = '0')).length) :
    readProgram (String.ofList digits) maxDepth =
      .ok ⟨⟨[]⟩, [.badInteger (String.ofList digits)],
        [.reported ⟨.badInteger (String.ofList digits), .numeral digits⟩,
          .skipping (.numeral digits), .parsed 0 1]⟩ := by
  have bad : integerValue? (String.ofList digits) = none := by
    rw [Option.eq_none_iff_forall_ne_some]
    intro value read
    have fits := (integerValue?_eq_some_iff.1 read).2.1
    rw [String.toList_ofList] at fits
    omega
  have readable : conversionFault? (String.ofList digits) = none := by
    rw [conversionFault?_eq, if_neg]
    rw [String.toList_ofList]
    omega
  rw [readProgram_digits nonempty all room, readable, parse_digits nonempty all room, bad]

theorem breaks_off_behind_zeros (long : Text.digitLimit < digits.length)
    (few : (digits.dropWhile (· = '0')).length ≤ 19) :
    readProgram (String.ofList digits) maxDepth = .error ⟨⟨digits.length⟩, []⟩ := by
  have unreadable : conversionFault? (String.ofList digits) = some ⟨digits.length⟩ := by
    rw [conversionFault?_eq, String.toList_ofList, if_pos ⟨⟨all, few⟩, long⟩]
  rw [readProgram_digits nonempty all room, unreadable]

end

/-- Literals of digits are read exactly: as their value where that fits into sixty-three bits, and with
one diagnostic where it does not. But where at most nineteen digits count and zeros before them make
the digits too many, the run is broken off. An integer token with any other text is refused with one
diagnostic. -/
theorem integer_literals_are_exact_up_to_digit_limit (digits : List Char) (maxDepth : Int)
    (p : Parser) :
    (digits ≠ [] → digits.all Char.isDigit = true → 1 ≤ maxDepth →
      (Text.digitsValue digits ≤ 2 ^ 63 - 1 → digits.length ≤ Text.digitLimit →
        ∃ parsed token value, readProgram (String.ofList digits) maxDepth = .ok parsed ∧
          parsed.messages = [] ∧ parsed.program = ⟨[.expression token (.integer token value)]⟩ ∧
          value = Text.digitsValue digits ∧
          (Expr.integer token value).render = String.ofList digits) ∧
      (2 ^ 63 - 1 < Text.digitsValue digits →
        digits.length ≤ Text.digitLimit ∨ 19 < (digits.dropWhile (· = '0')).length →
        ∃ parsed, readProgram (String.ofList digits) maxDepth = .ok parsed ∧
          parsed.messages = ["could not parse '" ++ String.ofList digits ++ "' as integer"] ∧
          parsed.program = ⟨[]⟩) ∧
      (Text.digitLimit < digits.length → (digits.dropWhile (· = '0')).length ≤ 19 →
        readProgram (String.ofList digits) maxDepth = .error ⟨⟨digits.length⟩, []⟩)) ∧
    (p.current.kind = .integer →
      ¬ (p.current.text.toList ≠ [] ∧ p.current.text.toList.all Char.isDigit = true) →
      conversionFault? p.current.text = none ∧
        ∃ failure q, integer p = (.error failure, q) ∧
          q.diagnostics = p.diagnostics ++ [failure.diagnostic] ∧
          failure.diagnostic.message =
            "could not parse " ++ Text.quoted p.current.text ++ " as integer") := by
  constructor
  · intro nonempty all room
    refine ⟨?_, ?_, ?_⟩
    · intro fits short
      exact ⟨_, .numeral digits, Text.digitsValue digits, reads_in_range nonempty all room fits short,
        rfl, rfl, rfl, Expr.render_integer _ _⟩
    · intro large readable
      have refused := refuses_out_of_range nonempty all room large readable
      refine ⟨_, refused, ?_, rfl⟩
      exact congrArg (fun m => [m]) (message_of_digits all)
    · intro long few
      exact breaks_off_behind_zeros nonempty all room long few
  · intro _ other
    obtain ⟨readable, failed⟩ := integer_of_no_numeral other
    exact ⟨readable, _, _, failed, p.diagnostics_report _, rfl⟩

/-- A number in range is read behind zeros, not behind thousands of them, and a superscript digit is
no number. -/
theorem zeros_are_read_up_to_digit_limit :
    (∃ parsed token value, readProgram (String.ofList ['0', '0', '7']) 1 = .ok parsed ∧
      parsed.messages = [] ∧ parsed.program = ⟨[.expression token (.integer token value)]⟩ ∧
      value = Text.digitsValue ['0', '0', '7'] ∧
      (Expr.integer token value).render = String.ofList ['0', '0', '7']) ∧
    readProgram (String.ofList (List.replicate 4301 '0')) 100 = .error ⟨⟨4301⟩, []⟩ ∧
    conversionFault? "²" = none := by
  let p := Parser.ofList [⟨.integer, "²", ⟨1, 1⟩⟩] 100
  have seven := integer_literals_are_exact_up_to_digit_limit ['0', '0', '7'] 1 p
  have zeros := integer_literals_are_exact_up_to_digit_limit (List.replicate 4301 '0') 100 p
  refine ⟨?_, ?_, ?_⟩
  · exact (seven.1 (by decide) (by decide) (by decide)).1 (by decide) (by decide)
  · have plain (n : Nat) : (List.replicate n '0').all Char.isDigit = true ∧
        (List.replicate n '0').dropWhile (· = '0') = [] := by simp
    have broken := (zeros.1 (List.cons_ne_nil _ _) (plain 4301).1 (by decide)).2.2
    rw [List.length_replicate, (plain 4301).2] at broken
    exact broken (by decide) (by decide)
  · exact (seven.2 rfl (by decide)).1

end PrattFrontEnd
