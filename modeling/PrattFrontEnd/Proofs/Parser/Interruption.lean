import Mathlib.Logic.Basic
import PrattFrontEnd.Parser.Conversion
import PrattFrontEnd.Proofs.Parser.Rounds

/-!
A run that can break off against the run that takes every literal as worked out. They part at one
place only, a literal that cannot be worked out where an expression should begin, and that is
reported there. Main statements: `read_ok`, a run that does not break off is the other run, and
`read_of_legible`, over literals that can be worked out the two are the same.
-/
namespace PrattFrontEnd

open Rule Expression Statement PrattFrontEnd.Parser

namespace Parser

variable {p q r : Parser}

/-- On the way from one parser to the other, the window stood on a literal that cannot be worked out,
and that was reported. -/
def BreaksOff (p q : Parser) : Prop :=
  ∃ events s, q.log = events ++ p.log ∧ p.Reaches s ∧ s.conversionFault?.isSome = true ∧
    .reported ⟨.badInteger s.current.text, s.current⟩ ∈ events

theorem BreaksOff.later (breaks : p.BreaksOff q) (reaches : q.Reaches r) : p.BreaksOff r := by
  obtain ⟨events, s, noted, on, fault, member⟩ := breaks
  obtain ⟨more, grown⟩ := reaches.log
  refine ⟨more ++ events, s, ?_, on, fault, List.mem_append_right more member⟩
  rw [grown, noted, List.append_assoc]

theorem BreaksOff.behind (breaks : q.BreaksOff r) (reaches : p.Reaches q) : p.BreaksOff r := by
  obtain ⟨events, s, noted, on, fault, member⟩ := breaks
  obtain ⟨before, grown⟩ := reaches.log
  refine ⟨events ++ before, s, ?_, reaches.trans on, fault, List.mem_append_left before member⟩
  rw [noted, grown, List.append_assoc]

theorem BreaksOff.at_depth {depth other : Nat}
    (breaks : BreaksOff { p with depth } q) : p.BreaksOff { q with depth := other } := by
  obtain ⟨events, s, noted, on, fault, member⟩ := breaks
  exact ⟨events, { s with depth := p.depth }, noted, on.at_depth p.depth, fault, member⟩

end Parser

/-- Two rules of which the second one does what the first one does, unless it breaks off. -/
structure Rule.Interrupted (rule other : Rule α) : Prop where
  steady : other.Steady
  same : ∀ p : Parser, p.BreaksOff (other p).2 ∨ other p = rule p

theorem Rule.Interrupted.bind {first other : Rule α} {next nextToo : α → Rule β}
    (before : first.Interrupted other) (after : ∀ a, (next a).Interrupted (nextToo a)) :
    (first >>= next).Interrupted (other >>= nextToo) := by
  refine ⟨before.steady.bind fun a => (after a).steady, ?_⟩
  intro p
  rcases before.same p with breaks | same
  · exact .inl (breaks.later (Steady.reaches_behind (fun a => (after a).steady) p))
  · cases run : other p with
    | mk result q =>
      rw [run] at same
      cases result with
      | error failure =>
        right
        rw [bind_of_error run, bind_of_error same.symm]
      | ok a =>
        rw [bind_of_ok run, bind_of_ok same.symm]
        rcases (after a).same q with breaks | further
        · exact .inl (breaks.behind (before.steady.reaches run))
        · exact .inr further

theorem Rule.Interrupted.attempt {rule other : Rule α} (interrupted : rule.Interrupted other) :
    rule.attempt.Interrupted other.attempt := by
  refine ⟨interrupted.steady.attempt, ?_⟩
  intro p
  unfold Rule.attempt
  rcases interrupted.same p with breaks | same
  · left
    cases run : other p with
    | mk result q =>
      rw [run] at breaks
      cases result with
      | ok a => exact breaks
      | error failure => exact breaks.later q.reaches_synchronize
  · right
    rw [same]

def Rule.Relation.interrupted : Relation where
  holds := Interrupted
  pure a := ⟨Relation.steady.pure a, fun _ => .inr rfl⟩
  bind before after := before.bind after
  look found := by
    constructor
    · intro p
      obtain ⟨_, sameToo, does, interrupted⟩ := found p
      rw [(does p (.refl p)).2]
      exact interrupted.steady p
    · intro p
      obtain ⟨same, sameToo, does, interrupted⟩ := found p
      rw [(does p (.refl p)).1, (does p (.refl p)).2]
      exact interrupted.same p
  advance := ⟨Relation.steady.advance, fun _ => .inr rfl⟩
  fail diagnostic token := ⟨Relation.steady.fail diagnostic token, fun _ => .inr rfl⟩
  attempt interrupted := interrupted.attempt

namespace Expression

theorem conversionFault?_eq (literal : String) :
    conversionFault? literal =
      if (literal.toList.all Char.isDigit = true ∧
          (literal.toList.dropWhile (· = '0')).length ≤ 19) ∧
          Text.digitLimit < literal.toList.length
      then some ⟨literal.toList.length⟩ else none := by
  simp only [conversionFault?, Text.tooMany?, ite_and]

theorem readable_given_up {levels : Nat} {bound : Precedence} {p : Parser}
    (fault : p.conversionFault?.isSome = true) :
    readable (levels + 1) bound p = fail (.badInteger p.current.text) p.current p :=
  if_pos fault

theorem readable_begun {levels : Nat} {bound : Precedence} {p : Parser}
    (sound : p.conversionFault? = none) :
    readable (levels + 1) bound p =
      ((start (readable levels) bound { p with depth := p.depth + 1 }).1,
        { (start (readable levels) bound { p with depth := p.depth + 1 }).2 with
          depth := (start (readable levels) bound { p with depth := p.depth + 1 }).2.depth - 1 }) := by
  have goes : ¬ p.conversionFault?.isSome = true := by simp [sound]
  exact if_neg goes

theorem interrupted_within (levels : Nat) (bound : Precedence) :
    Interrupted (within levels bound) (readable levels bound) := by
  induction levels generalizing bound with
  | zero => exact ⟨steady_within 0 bound, fun _ => .inr rfl⟩
  | succ levels ih =>
    have inner := Relation.interrupted.start ih bound
    constructor
    · intro p
      cases fault : p.conversionFault? with
      | some reason =>
        rw [readable_given_up (by rw [fault]; rfl)]
        exact Relation.steady.fail _ _ p
      | none =>
        have begun := inner.steady { p with depth := p.depth + 1 }
        rw [readable_begun fault]
        exact ⟨begun.moves.outwards, begun.reports⟩
    · intro p
      cases fault : p.conversionFault? with
      | some reason =>
        -- Here alone the two runs can part.
        left
        rw [readable_given_up (by rw [fault]; rfl)]
        exact ⟨_, p, rfl, .refl, by rw [fault]; rfl, List.mem_singleton_self _⟩
      | none =>
        rw [readable_begun fault]
        rcases inner.same { p with depth := p.depth + 1 } with breaks | same
        · exact .inl breaks.at_depth
        · right
          rw [same]
          rfl

theorem steady_readable (levels : Nat) (bound : Precedence) : (readable levels bound).Steady :=
  (interrupted_within levels bound).steady

end Expression

namespace Interruption

theorem inLog?_isSome {events : List Event} {event : Event} (member : event ∈ events)
    (breaks : event.breaks?.isSome = true) : (inLog? events).isSome = true := by
  induction events with
  | nil => cases member
  | cons first events ih =>
    unfold inLog?
    split
    · rfl
    · rename_i goes
      rcases List.mem_cons.1 member with rfl | later
      · rw [goes] at breaks
        cases breaks
      · rw [Option.isSome_map]
        exact ih later

theorem inLog?_eq_none {events : List Event} (goes : ∀ event ∈ events, event.breaks? = none) :
    inLog? events = none := by
  induction events with
  | nil => rfl
  | cons first events ih =>
    obtain ⟨here, later⟩ := List.forall_mem_cons.1 goes
    rw [inLog?, here]
    simp [ih later]

end Interruption

theorem Parsed.unlessBroken_eq_ok {r parsed : Parsed}
    (whole : r.unlessBroken = .ok parsed) : Interruption.inLog? r.log = none ∧ parsed = r := by
  unfold Parsed.unlessBroken at whole
  split at whole
  · cases whole
  · rename_i goes
    exact ⟨goes, (Except.ok.inj whole).symm⟩

namespace Parser

variable {p q : Parser}

theorem BreaksOff.event (breaks : p.BreaksOff q) :
    ∃ event ∈ q.log, event.breaks?.isSome = true := by
  obtain ⟨events, s, noted, _, fault, member⟩ := breaks
  refine ⟨.reported ⟨.badInteger s.current.text, s.current⟩, ?_, ?_⟩
  · rw [noted]
    exact List.mem_append_left p.log member
  · unfold conversionFault? at fault
    split at fault
    · exact fault
    · cases fault

theorem read_of_statements {built : List Stmt}
    (same : statements (readable p.levels) endsProgram p = (built, q)) :
    p.read = Parsed.unlessBroken ⟨⟨built⟩, q.diagnostics,
      q.log.reverse ++ [.parsed built.length q.diagnostics.length]⟩ := by
  unfold statements at same
  unfold read Statement.program
  rw [same]
  dsimp only
  rw [diagnostics_note_parsed]
  simp only [note, List.reverse_cons]

theorem statements_interrupted (p : Parser) :
    p.BreaksOff (statements (readable p.levels) endsProgram p).2 ∨
      statements (readable p.levels) endsProgram p = statements p.operand endsProgram p := by
  have interrupted := Relation.interrupted.sequence
    (fun bound => interrupted_within p.levels bound) endsProgram p.span
  rcases interrupted.same p with breaks | same
  · exact .inl breaks
  · right
    have built := congrArg Prod.fst same
    have reached := congrArg Prod.snd same
    exact Prod.ext (Except.ok.inj built) reached

theorem statements_of_read {parsed : Parsed} (read : p.read = .ok parsed) :
    statements (readable p.levels) endsProgram p = statements p.operand endsProgram p := by
  rcases p.statements_interrupted with breaks | same
  · cases looped : statements (readable p.levels) endsProgram p with
    | mk built q =>
      rw [looped] at breaks
      obtain ⟨event, member, breaksHere⟩ := breaks.event
      rw [read_of_statements looped] at read
      have whole : Interruption.inLog?
          (q.log.reverse ++ [.parsed built.length q.diagnostics.length]) = none :=
        (Parsed.unlessBroken_eq_ok read).1
      have broken := Interruption.inLog?_isSome
        (List.mem_append_left [.parsed built.length q.diagnostics.length]
          (List.mem_reverse.2 member)) breaksHere
      rw [whole] at broken
      cases broken
  · exact same

theorem read_ok {parsed : Parsed} (read : p.read = .ok parsed) : parsed = p.run := by
  rw [run_of_statements (statements_of_read read).symm]
  rw [read_of_statements rfl] at read
  exact (Parsed.unlessBroken_eq_ok read).2

theorem log_silent (clean : p.diagnostics = []) : ∀ event ∈ p.log, event.failure? = none := by
  intro event member
  cases reported : event.failure? with
  | none => rfl
  | some failure =>
    have listed : failure.diagnostic ∈ p.diagnostics := by
      simp only [diagnostics, List.mem_filterMap, List.mem_reverse]
      exact ⟨event, member, by rw [reported]; rfl⟩
    rw [clean] at listed
    exact absurd listed List.not_mem_nil

theorem read_of_legible (legible : ∀ s : Parser, p.Reaches s → s.conversionFault? = none) :
    p.read = p.run.unlessBroken := by
  rcases p.statements_interrupted with ⟨_, s, _, reaches, fault, _⟩ | same
  · rw [legible s reaches] at fault
    cases fault
  · rw [run_of_statements same.symm, read_of_statements rfl]

theorem unlessBroken_of_clean (clean : p.run.diagnostics = []) :
    p.run.unlessBroken = .ok p.run := by
  cases looped : statements p.operand endsProgram p with
  | mk built q =>
    have ran : p.run = _ := run_of_statements looped
    rw [ran] at clean ⊢
    rw [Parsed.unlessBroken, Interruption.inLog?_eq_none]
    intro event member
    rcases List.mem_append.1 member with inside | last
    · have quiet := log_silent clean event (List.mem_reverse.1 inside)
      cases event with
      | reported failure => cases quiet
      | skipping token => rfl
      | parsed count reported => rfl
    · rw [List.mem_singleton.1 last]
      rfl

theorem conversionFault?_of_integer (ready : p.Ready) (kind : p.current.kind = .integer) :
    p.conversionFault? = Expression.conversionFault? p.current.text := by
  rw [conversionFault?, ready.table, kind]
  exact if_pos rfl

theorem conversionFault?_of_other (ready : p.Ready) (other : p.current.kind ≠ .integer) :
    p.conversionFault? = none := by
  have unopened : RuleTable.standard.opening p.current.kind ≠ some .integer := by
    cases kind : p.current.kind with
    | integer => exact absurd kind other
    | _ => nofun
  rw [conversionFault?, ready.table]
  exact if_neg unopened

theorem conversionFault?_of_on {ts : List Token} (ready : p.Ready) (on : p.On ts)
    (legible : ∀ t ∈ ts, t.kind = .integer → Expression.conversionFault? t.text = none)
    (reaches : p.Reaches q) : q.conversionFault? = none := by
  have readyThere := ready.of_reaches reaches
  by_cases kind : q.current.kind = .integer
  · obtain ⟨us, behind, there⟩ := reaches.on on
    obtain ⟨rest, rfl, _⟩ := on_split there (by rw [kind]; decide)
    rw [conversionFault?_of_integer readyThere kind]
    exact legible q.current (behind.subset List.mem_cons_self) kind
  · exact conversionFault?_of_other readyThere kind

end Parser

end PrattFrontEnd
