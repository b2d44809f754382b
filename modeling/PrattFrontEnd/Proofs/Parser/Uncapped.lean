import PrattFrontEnd.Proofs.Parser.Rounds
import PrattFrontEnd.Proofs.Syntax.Sameness
import PrattFrontEnd.Syntax.Render

/-!
A cap on nesting that is never reached makes no difference. The cap is looked at in one place only,
where it is reached and that is reported; a run without such a report is the same run under every
higher cap. Main statement: `unreached_cap_is_invisible`.
-/
namespace PrattFrontEnd

open Rule Expression Statement PrattFrontEnd.Parser

namespace Parser

variable {p q r : Parser}

def under (p : Parser) (cap : Int) : Parser := { p with maxDepth := cap }

@[simp] theorem under_current (p : Parser) (cap : Int) : (p.under cap).current = p.current := rfl

@[simp] theorem under_peek (p : Parser) (cap : Int) : (p.under cap).peek = p.peek := rfl

theorem shows_under (p : Parser) (cap : Int) : p.Shows (p.under cap) := ⟨rfl, rfl, rfl, rfl⟩

/-- On the way from one parser to the other it was reported that an expression stands too deep. -/
def Refuses (p q : Parser) : Prop :=
  ∃ events token, q.log = events ++ p.log ∧ .reported ⟨.tooDeep p.maxDepth, token⟩ ∈ events

theorem Refuses.later (refuses : p.Refuses q) (reaches : q.Reaches r) : p.Refuses r := by
  obtain ⟨events, token, noted, member⟩ := refuses
  obtain ⟨more, grown⟩ := reaches.log
  refine ⟨more ++ events, token, ?_, List.mem_append_right more member⟩
  rw [grown, noted, List.append_assoc]

theorem Refuses.behind (refuses : q.Refuses r) (reaches : p.Reaches q) : p.Refuses r := by
  obtain ⟨events, token, noted, member⟩ := refuses
  obtain ⟨before, grown⟩ := reaches.log
  rw [reaches.maxDepth] at member
  refine ⟨events ++ before, token, ?_, List.mem_append_left before member⟩
  rw [noted, grown, List.append_assoc]

theorem under_skipStatement (opened : Nat) (p : Parser) (cap : Int) :
    (p.under cap).skipStatement opened = (p.skipStatement opened).under cap := by
  fun_induction skipStatement opened p with
  | case1 opened p ended => rw [skipStatement, under_current, if_pos ended]
  | case2 opened p more last =>
    rw [skipStatement, under_current, under_peek, if_neg more, dif_pos last]
  | case3 opened p more further rested =>
    rw [skipStatement, under_current, under_peek, if_neg more, dif_neg further, if_pos rested]
  | case4 opened p more further goes ih =>
    rw [skipStatement, under_current, under_peek, if_neg more, dif_neg further, if_neg goes]
    exact ih

theorem under_synchronize (p : Parser) (cap : Int) :
    (p.under cap).synchronize = p.synchronize.under cap :=
  under_skipStatement 0 (p.note (.skipping p.current)) cap

end Parser

/-- Two rules of which the second one does under another cap what the first one does, unless the
first one reports that an expression stands too deep. -/
structure Rule.Uncapped (cap : Int) (rule other : Rule α) : Prop where
  steady : rule.Steady
  same : ∀ p : Parser, p.Refuses (rule p).2 ∨
    other (p.under cap) = ((rule p).1, (rule p).2.under cap)

theorem Rule.Uncapped.bind {cap : Int} {first other : Rule α} {next nextToo : α → Rule β}
    (before : first.Uncapped cap other) (after : ∀ a, (next a).Uncapped cap (nextToo a)) :
    (first >>= next).Uncapped cap (other >>= nextToo) := by
  refine ⟨before.steady.bind fun a => (after a).steady, ?_⟩
  intro p
  rcases before.same p with refuses | same
  · exact .inl (refuses.later (Steady.reaches_behind (fun a => (after a).steady) p))
  · cases run : first p with
    | mk result q =>
      rw [run] at same
      cases result with
      | error failure =>
        right
        rw [bind_of_error same, bind_of_error run]
      | ok a =>
        rw [bind_of_ok same, bind_of_ok run]
        rcases (after a).same q with refuses | further
        · exact .inl (refuses.behind (before.steady.reaches run))
        · exact .inr further

theorem Rule.Uncapped.attempt {cap : Int} {rule other : Rule α} (uncapped : rule.Uncapped cap other) :
    rule.attempt.Uncapped cap other.attempt := by
  refine ⟨uncapped.steady.attempt, ?_⟩
  intro p
  unfold Rule.attempt
  rcases uncapped.same p with refuses | same
  · left
    cases run : rule p with
    | mk result q =>
      rw [run] at refuses
      cases result with
      | ok a => exact refuses
      | error failure => exact refuses.later q.reaches_synchronize
  · right
    rw [same]
    cases rule p with
    | mk result q =>
      cases result with
      | ok a => rfl
      | error failure =>
        show (Except.ok none, (q.under cap).synchronize) = _
        rw [under_synchronize]

def Rule.Relation.uncapped (cap : Int) : Relation where
  holds := Uncapped cap
  pure a := ⟨Relation.steady.pure a, fun _ => .inr rfl⟩
  bind before after := before.bind after
  look found := by
    constructor
    · intro p
      obtain ⟨same, _, does, uncapped⟩ := found p
      rw [(does p (.refl p)).1]
      exact uncapped.steady p
    · intro p
      obtain ⟨same, sameToo, does, uncapped⟩ := found p
      rw [(does p (.refl p)).1, (does (p.under cap) (p.shows_under cap)).2]
      exact uncapped.same p
  advance := ⟨Relation.steady.advance, fun _ => .inr rfl⟩
  fail diagnostic token := ⟨Relation.steady.fail diagnostic token, fun _ => .inr rfl⟩
  attempt uncapped := uncapped.attempt

theorem Expression.uncapped_within (cap : Int) (levels more : Nat) (bound : Precedence) :
    Uncapped cap (within levels bound) (within (levels + more) bound) := by
  induction levels generalizing bound with
  | zero =>
    -- Here alone the two runs can part, and the one under the lower cap reports it.
    refine ⟨steady_within 0 bound, ?_⟩
    intro p
    exact .inl ⟨_, p.current, rfl, List.mem_singleton_self _⟩
  | succ levels ih =>
    refine ⟨steady_within _ bound, ?_⟩
    intro p
    rcases ((Relation.uncapped cap).start ih bound).same { p with depth := p.depth + 1 } with
      refuses | same
    · exact .inl refuses
    · right
      rw [Nat.succ_add]
      unfold within
      exact congrArg (fun outcome : Except Failure Expr × Parser =>
        (outcome.1, { outcome.2 with depth := outcome.2.depth - 1 })) same

namespace Parser

variable {p : Parser}

theorem Refuses.diagnostic {q : Parser} (refuses : p.Refuses q) (fresh : p.log = []) :
    .tooDeep p.maxDepth ∈ q.diagnostics := by
  obtain ⟨events, token, noted, member⟩ := refuses
  rw [fresh, List.append_nil] at noted
  simp only [diagnostics, noted, List.mem_filterMap, List.mem_reverse]
  exact ⟨_, member, rfl⟩

theorem statements_under (p : Parser) {cap : Int} (raised : p.maxDepth ≤ cap) :
    p.Refuses (statements p.operand endsProgram p).2 ∨
      statements (p.under cap).operand endsProgram (p.under cap) =
        ((statements p.operand endsProgram p).1, (statements p.operand endsProgram p).2.under cap) := by
  have higher : (p.under cap).levels = p.levels + ((p.under cap).levels - p.levels) := by
    show (cap - p.depth).toNat = (p.maxDepth - p.depth).toNat + _
    simp only [levels, under]
    omega
  have uncapped := (Relation.uncapped cap).sequence
    (uncapped_within cap p.levels ((p.under cap).levels - p.levels)) endsProgram p.span
  rw [← higher] at uncapped
  rcases uncapped.same p with refuses | same
  · exact .inl refuses
  · right
    have built := congrArg Prod.fst same
    have reached := congrArg Prod.snd same
    exact Prod.ext (Except.ok.inj built) reached

end Parser

/-- Raising a cap that no report names changes neither what is built nor what is reported. -/
theorem unreached_cap_is_invisible (source : Source) {cap higher : Int} (raised : cap ≤ higher)
    (unreached : "maximum nesting depth of " ++ toString cap ++ " exceeded" ∉
      (onSource source cap).run.messages) :
    (onSource source higher).run.program.same (onSource source cap).run.program = true ∧
      (onSource source higher).run.program.render = (onSource source cap).run.program.render ∧
      (onSource source higher).run.diagnostics = (onSource source cap).run.diagnostics := by
  let p := onSource source cap
  have ran : p.run = _ := run_of_statements rfl
  rcases p.statements_under raised with refuses | same
  · have reported : .tooDeep cap ∈ p.run.diagnostics := by
      rw [ran]
      exact refuses.diagnostic rfl
    exact absurd (List.mem_map_of_mem reported) unreached
  · have ranToo : (onSource source higher).run = _ := run_of_statements same
    rw [ranToo, ran]
    exact ⟨(Program.same_iff_record _ _).2 rfl, rfl, rfl⟩

/-- A statement without a name is dropped and a negation is kept, with two levels or with nine. -/
theorem two_levels_are_enough_for_negation :
    (2 : Int) ≤ 9 ∧
      "maximum nesting depth of " ++ toString (2 : Int) ++ " exceeded" ∉
        (onSource (.ofString "let = 1; !a") 2).run.messages ∧
      (onSource (.ofString "let = 1; !a") 9).run.program.same
        (onSource (.ofString "let = 1; !a") 2).run.program = true ∧
      (onSource (.ofString "let = 1; !a") 9).run.program.render =
        (onSource (.ofString "let = 1; !a") 2).run.program.render ∧
      (onSource (.ofString "let = 1; !a") 9).run.diagnostics =
        (onSource (.ofString "let = 1; !a") 2).run.diagnostics := by
  have raised : (2 : Int) ≤ 9 := by decide
  have unreached : "maximum nesting depth of " ++ toString (2 : Int) ++ " exceeded" ∉
      (onSource (.ofString "let = 1; !a") 2).run.messages := by
    decide +kernel
  exact ⟨raised, unreached, unreached_cap_is_invisible _ raised unreached⟩

end PrattFrontEnd
