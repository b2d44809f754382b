import PrattFrontEnd.Proofs.Grammar.Clearance

/-!
The parser and the grammar agree as far as integers can be worked out. With room for every nesting,
the programs that are parsed without a diagnostic are the ones that can be derived from such tokens,
and every derivation of a program leads to the one tree that is built. Main statement:
`accepts_exactly_the_readable_programs`.
-/
namespace PrattFrontEnd

open PrattFrontEnd.Parser

theorem run_of_derivesFrom {tokens : List Token} {program : Program} {maxDepth : Int}
    (noEnd : ∀ t ∈ tokens, t.kind ≠ .eof) (deep : tokens.length ≤ maxDepth)
    (derives : program.DerivesFrom tokens) :
    (ofList tokens maxDepth).run.program = program ∧
      (ofList tokens maxDepth).run.diagnostics = [] := by
  obtain ⟨d⟩ := derives
  have short := d.need_add_length_le
  rw [List.length_nil] at short
  apply run_of_derivation d
  · rw [ofList, levels_onSource]
    omega
  · exact ready_onSource _ _
  · exact on_ofList maxDepth noEnd
  · rfl

section

variable {tokens : List Token} {maxDepth : Int} (noEnd : ∀ t ∈ tokens, t.kind ≠ .eof)

include noEnd

theorem read_of_derivesFrom {program : Program} (deep : tokens.length ≤ maxDepth)
    (readable : ∀ t ∈ tokens, t.Readable) (derives : program.DerivesFrom tokens) :
    ∃ parsed, (ofList tokens maxDepth).read = .ok parsed ∧ parsed.diagnostics = [] ∧
      parsed.program = program := by
  obtain ⟨built, clean⟩ := run_of_derivesFrom noEnd deep derives
  refine ⟨_, ?_, clean, built⟩
  rw [read_of_legible, unlessBroken_of_clean clean]
  intro s reaches
  exact conversionFault?_of_on (ready_onSource _ _) (on_ofList maxDepth noEnd)
    (fun t member kind => (readable t member).sound kind) reaches

theorem derivesFrom_of_read {parsed : Parsed} (read : (ofList tokens maxDepth).read = .ok parsed)
    (clean : parsed.diagnostics = []) :
    parsed.program.DerivesFrom tokens ∧ ∀ t ∈ tokens, t.Readable := by
  have on := on_ofList maxDepth noEnd
  have readable := readable_of_read (ready_onSource _ _) on read clean
  rw [read_ok read] at clean ⊢
  exact ⟨derivation_of_run (ready_onSource _ _) on clean, readable⟩

end

/-- A list of tokens is parsed without a diagnostic exactly when it is a program of the grammar with
integers of no more digits than can be worked out, and then into the tree of its derivation. A program
with a longer integer breaks the run off. -/
theorem accepts_exactly_the_readable_programs (tokens : List Token)
    (noEnd : ∀ t ∈ tokens, t.kind ≠ .eof) (maxDepth : Int) (deep : tokens.length ≤ maxDepth) :
    ((∃ parsed, (ofList tokens maxDepth).read = .ok parsed ∧ parsed.diagnostics = []) ↔
        (∃ program : Program, program.DerivesFrom tokens) ∧ ∀ t ∈ tokens, t.Readable) ∧
      ∀ program : Program, program.DerivesFrom tokens →
        ((∀ t ∈ tokens, t.Readable) →
          ∃ parsed, (ofList tokens maxDepth).read = .ok parsed ∧ parsed.diagnostics = [] ∧
            parsed.program = program) ∧
        (∀ t ∈ tokens, ¬ t.Readable →
          ∃ interruption, (ofList tokens maxDepth).read = .error interruption) := by
  refine ⟨⟨?_, ?_⟩, fun program derives => ⟨?_, ?_⟩⟩
  · rintro ⟨parsed, read, clean⟩
    obtain ⟨derives, readable⟩ := derivesFrom_of_read noEnd read clean
    exact ⟨⟨_, derives⟩, readable⟩
  · rintro ⟨⟨program, derives⟩, readable⟩
    obtain ⟨parsed, read, clean, _⟩ := read_of_derivesFrom noEnd deep readable derives
    exact ⟨parsed, read, clean⟩
  · exact fun readable => read_of_derivesFrom noEnd deep readable derives
  · intro t member long
    cases read : (ofList tokens maxDepth).read with
    | error interruption => exact ⟨interruption, rfl⟩
    | ok parsed =>
      have clean := (run_of_derivesFrom noEnd deep derives).2
      rw [← read_ok read] at clean
      exact absurd ((derivesFrom_of_read noEnd read clean).2 t member) long

theorem derivesFrom_zeros {t : Token} {n : Nat} (kind : t.kind = .integer)
    (spelled : t.text.toList = List.replicate (n + 1) '0') :
    ∃ program : Program, program.DerivesFrom [t] := by
  have numeral : t.text.toList ≠ [] ∧ t.text.toList.all Char.isDigit = true := by
    rw [spelled]
    simp
  have bound : Text.digitsValue t.text.toList ≤ 2 ^ 63 - 1 := by
    rw [spelled, ← Text.digitsValue_dropWhile]
    simp [Text.digitsValue]
  -- Down to the parts that hold together.
  exact ⟨⟨[.expression t (.integer t (Text.digitsValue t.text.toList))]⟩,
    ⟨.stmts (.expression (.tighter rfl (.tighter rfl (.tighter rfl (.tighter rfl (.tighter rfl
      (.tighter rfl (.integer t kind numeral bound))))))) (Or.inr ⟨rfl, by simp⟩)) .noStmts⟩⟩

/-- The product `a * 07` is accepted, and a program of nothing but more zeros than can be worked out
breaks the run off. -/
theorem product_accepted_and_zeros_broken_off :
    (∃ parsed, (ofList [⟨.identifier, "a", ⟨1, 1⟩⟩, ⟨.asterisk, "*", ⟨1, 3⟩⟩,
        ⟨.integer, "07", ⟨1, 5⟩⟩] 3).read = .ok parsed ∧ parsed.diagnostics = []) ∧
      ∃ interruption, (ofList [⟨.integer, String.ofList (List.replicate 4301 '0'), ⟨1, 1⟩⟩]
        1).read = .error interruption := by
  constructor
  · apply (accepts_exactly_the_readable_programs _ (by decide) 3 (by decide)).1.2
    refine ⟨⟨⟨[.expression ⟨.identifier, "a", ⟨1, 1⟩⟩ (.binary ⟨.asterisk, "*", ⟨1, 3⟩⟩
      (.name ⟨⟨.identifier, "a", ⟨1, 1⟩⟩, "a"⟩) "*" (.integer ⟨.integer, "07", ⟨1, 5⟩⟩ 7))]⟩, ⟨?_⟩⟩,
      by decide⟩
    -- Down to the stratum of products, and from the operands of the product to its parts.
    exact .stmts (.expression (.tighter rfl (.tighter rfl (.tighter rfl
      (.binary ⟨.asterisk, "*", ⟨1, 3⟩⟩ rfl rfl
        (.tighter rfl (.tighter rfl (.tighter rfl (.name _ rfl))))
        (.tighter rfl (.tighter rfl (.integer ⟨.integer, "07", ⟨1, 5⟩⟩ rfl (by decide)
          (by decide)))))))) (Or.inr ⟨rfl, by simp⟩)) .noStmts
  · generalize zeros : (⟨.integer, String.ofList (List.replicate 4301 '0'), ⟨1, 1⟩⟩ : Token) = t
    have kind : t.kind = .integer := by rw [← zeros]
    have spelled : t.text.toList = List.replicate (4300 + 1) '0' := by
      rw [← zeros]
      exact String.toList_ofList
    obtain ⟨program, derives⟩ := derivesFrom_zeros kind spelled
    have accepts := accepts_exactly_the_readable_programs [t] (by simp [kind]) 1 (by simp)
    apply (accepts.2 program derives).2 t List.mem_cons_self
    intro readable
    have short := readable kind
    rw [spelled, List.length_replicate] at short
    exact absurd short (by decide)

end PrattFrontEnd
