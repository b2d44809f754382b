import Mathlib.Data.List.Forall2
import PrattFrontEnd.Parser.Bench
import PrattFrontEnd.Proofs.Parser.Trails
import PrattFrontEnd.Proofs.Parser.Upcoming

/-!
A parser under any use. Whatever is asked of it and in whatever order, on whatever token it stands, its
history is one walk, and what a step keeps holds of every parser in it, between the calls and inside of
them. Main statement: `parser_is_sound_under_any_use`.
-/
namespace PrattFrontEnd

open Rule

namespace Parser

theorem lastFailure_diagnostic (p : Parser) :
    p.lastFailure.map Failure.diagnostic = p.diagnostics.getLast? := by
  rw [lastFailure, diagnostics, List.filterMap_reverse, List.getLast?_reverse, List.head?_filterMap,
    List.map_findSome?]
  rfl

theorem lastFailure_eq_none_iff (p : Parser) : p.lastFailure = none ↔ p.diagnostics = [] := by
  rw [← List.getLast?_eq_none_iff, ← p.lastFailure_diagnostic, Option.map_eq_none_iff]

section steps

variable {p q : Parser} {trail : List Parser}

theorem Step.maxDepth (step : p.Step q) : q.maxDepth = p.maxDepth := by
  cases step <;> rfl

theorem Step.depth_le (step : p.Step q) (before : (p.depth : Int) ≤ max p.maxDepth 0) :
    (q.depth : Int) ≤ max q.maxDepth 0 := by
  cases step with
  | advance => exact before
  | note event => exact before
  | inwards room =>
    simp only [Int.natCast_add]
    omega
  | outwards =>
    show ((p.depth - 1 : Nat) : Int) ≤ max p.maxDepth 0
    omega

theorem Step.upcoming (step : p.Step q) : q.upcoming = p.upcoming ∨ q.upcoming = p.upcoming.tail := by
  cases step with
  | advance => exact Or.inr p.upcoming_advance
  | note event => exact Or.inl rfl
  | inwards room => exact Or.inl rfl
  | outwards => exact Or.inl rfl

theorem Step.diagnostics (step : p.Step q) : p.diagnostics <+: q.diagnostics := by
  cases step with
  | advance => exact List.prefix_refl _
  | note event =>
    simp only [Parser.diagnostics, Parser.note, List.reverse_cons, List.filterMap_append]
    exact List.prefix_append _ _
  | inwards room => exact List.prefix_refl _
  | outwards => exact List.prefix_refl _

theorem Walk.depth_le (walk : p.Walk trail q) (start : (p.depth : Int) ≤ max p.maxDepth 0) :
    ∀ r ∈ p :: trail, (r.depth : Int) ≤ max p.maxDepth 0 := by
  induction walk with
  | stay => simpa using start
  | step first _ ih =>
    have behind := ih (first.depth_le start)
    rw [first.maxDepth] at behind
    exact List.forall_mem_cons.2 ⟨start, behind⟩

theorem Walk.diagnostics (walk : p.Walk trail q) :
    (p :: trail).Pairwise fun r s => r.diagnostics <+: s.diagnostics := by
  induction walk with
  | stay => exact List.pairwise_singleton _ _
  | @step p q r trail first _ ih =>
    refine List.pairwise_cons.2 ⟨?_, ih⟩
    intro s member
    rcases List.mem_cons.1 member with rfl | later
    · exact first.diagnostics
    · exact first.diagnostics.trans ((List.pairwise_cons.1 ih).1 s later)

def StandsAt (stream : Stream' Token) (n : Nat) (p : Parser) : Prop :=
  p.current = stream.get n ∧ p.peek = stream.get (n + 1)

theorem standsAt_of_upcoming {stream : Stream' Token} {n : Nat}
    (coming : p.upcoming = stream.drop n) : p.StandsAt stream n := by
  have first : p.upcoming.get 0 = stream.get n := by rw [coming, Stream'.get_drop, Nat.add_zero]
  have second : p.upcoming.get 1 = stream.get (n + 1) := by rw [coming, Stream'.get_drop]
  exact ⟨first, second⟩

theorem Walk.standsAt {stream : Stream' Token} {n : Nat} (walk : p.Walk trail q)
    (coming : p.upcoming = stream.drop n) :
    ∃ places : List Nat, (n :: places).Pairwise (· ≤ ·) ∧
      List.Forall₂ (fun m r => StandsAt stream m r) (n :: places) (p :: trail) := by
  induction walk generalizing n with
  | stay =>
    exact ⟨[], List.pairwise_singleton _ _, .cons (standsAt_of_upcoming coming) .nil⟩
  | @step p q r trail first _ ih =>
    have next : ∃ m, n ≤ m ∧ q.upcoming = stream.drop m := by
      rcases first.upcoming with same | moved
      · exact ⟨n, Nat.le_refl n, same.trans coming⟩
      · exact ⟨n + 1, Nat.le_succ n, by rw [moved, coming, Stream'.tail_drop']⟩
    obtain ⟨m, later, behind⟩ := next
    obtain ⟨places, ordered, stands⟩ := ih behind
    refine ⟨m :: places, List.pairwise_cons.2 ⟨?_, ordered⟩,
      .cons (standsAt_of_upcoming coming) stands⟩
    intro k member
    rcases List.mem_cons.1 member with rfl | further
    · exact later
    · exact Nat.le_trans later ((List.pairwise_cons.1 ordered).1 k further)

theorem Walk.end_mem (walk : p.Walk trail q) : q ∈ p :: trail := by
  induction walk with
  | stay => exact List.mem_cons_self
  | step _ _ ih => exact List.mem_cons_of_mem _ ih

end steps

end Parser

def Request.plain : Request → Bool
  | .setOpening _ _ | .register _ _ _ | .dropOpening _ | .dropContinuation _
  | .setPrecedence _ _ => false
  | _ => true

abbrev Call : Type := { request : Request // request.plain = true }

theorem Parser.always_parseProgram (p : Parser) :
    always parseProgram p = always (Statement.program p.operand) p := by
  rw [always, always, parseProgram]

theorem Parser.always_parseBlock (p : Parser) :
    always parseBlock p = always (Statement.block p.operand) p := by
  rw [always, always, parseBlock]

namespace Bench

/-- What a call makes of a parser: the parsers it passes on the way, with the last one as deep as the
first, and the failure it answers with, if any, as the last one reported. -/
structure Turn (b : Bench) (outcome : Answer × Bench) where
  passes : List Parser
  walk : b.parser.Walk passes outcome.2.parser
  reaches : b.parser.Reaches outcome.2.parser
  reports : ∀ failure, outcome.1 = .failed failure → outcome.2.parser.lastFailure = some failure

namespace Turn

variable {b : Bench} {rule : Rule α}

def still (answer : Answer) (left : Expr) (answers : ∀ failure, answer ≠ .failed failure) :
    b.Turn (answer, ⟨b.parser, left⟩) :=
  ⟨[], .stay, .refl, fun failure failed => absurd failed (answers failure)⟩

def moved (answer : Answer) {passes : List Parser} {q : Parser} (walk : b.parser.Walk passes q)
    (reaches : b.parser.Reaches q) (answers : ∀ failure, answer ≠ .failed failure) :
    b.Turn (answer, { b with parser := q }) :=
  ⟨passes, walk, reaches, fun failure failed => absurd failed (answers failure)⟩

def along (trail : Trail b.parser.levels rule) {outcome : Answer × Bench}
    (last : outcome.2.parser = (rule b.parser).2)
    (failed : ∀ failure, outcome.1 = .failed failure → (rule b.parser).1 = .error failure) :
    b.Turn outcome where
  passes := trail.passes b.parser
  walk := last ▸ trail.walks b.parser rfl
  reaches := last ▸ (trail.steady b.parser).moves
  reports failure answered := by
    rw [last]
    exact (trail.steady b.parser).reports failure (failed failure answered)

def apply {asked : Rule α} (trail : Trail b.parser.levels rule)
    (same : asked b.parser = rule b.parser) (answer : α → Answer)
    (built : ∀ a failure, answer a ≠ .failed failure) : b.Turn (b.apply asked answer) := by
  refine along trail ?_ ?_
  · rw [← same]
    unfold Bench.apply
    cases asked b.parser with
    | mk result q => cases result <;> rfl
  · intro failure answered
    rw [← same]
    unfold Bench.apply at answered
    cases run : asked b.parser with
    | mk result q =>
      rw [run] at answered
      cases result with
      | ok a => exact absurd answered (built a failure)
      | error other =>
        cases answered
        rfl

def applyKeeping {asked rule : Rule Expr} (trail : Trail b.parser.levels rule)
    (same : asked b.parser = rule b.parser) : b.Turn (b.applyKeeping asked) := by
  refine along trail ?_ ?_
  · rw [← same]
    unfold Bench.applyKeeping
    cases asked b.parser with
    | mk result q => cases result <;> rfl
  · intro failure answered
    rw [← same]
    unfold Bench.applyKeeping at answered
    cases run : asked b.parser with
    | mk result q =>
      rw [run] at answered
      cases result with
      | ok e => cases answered
      | error other =>
        cases answered
        rfl

def expect (k : Kind) : b.Turn (b.serve (.expect k)) := by
  refine along (Trail.expect k) ?_ ?_
  · simp only [serve]
    cases Rule.expect k b.parser with
    | mk result q => cases result <;> rfl
  · intro failure answered
    simp only [serve] at answered
    cases run : Rule.expect k b.parser with
    | mk result q =>
      rw [run] at answered
      cases result <;> cases answered

end Turn

theorem failure_reports (p : Parser) (failure : Failure)
    (answered : (p.lastFailure.map Answer.failed).getD .refused = .failed failure) :
    p.lastFailure = some failure := by
  cases last : p.lastFailure with
  | none =>
    rw [last] at answered
    cases answered
  | some other =>
    rw [last] at answered
    cases answered
    rfl

theorem report_reports (p : Parser) (failure : Failure) (other : Failure)
    (answered : Answer.failed failure = .failed other) :
    (p.report failure).lastFailure = some other := by
  rw [p.lastFailure_report failure, Answer.failed.inj answered]

def turn (b : Bench) : (request : Request) → request.plain = true → b.Turn (b.serve request)
  | .advance, _ =>
    .moved (.token b.parser.advance.current) Parser.Step.advance.walk (.advance .refl) (by simp)
  | .currentIs _, _ => .still (.flag _) _ (by simp)
  | .peekIs _, _ => .still (.flag _) _ (by simp)
  | .currentPrecedence, _ => .still (.precedence _) _ (by simp)
  | .peekPrecedence, _ => .still (.precedence _) _ (by simp)
  | .precedenceOf _, _ => .still (.precedence _) _ (by simp)
  | .setLeft left, _ => .still .done left (by simp)
  | .failure, _ => ⟨[], .stay, .refl, failure_reports b.parser⟩
  | .expect k, _ => .expect k
  | .synchronize, _ => .moved .done b.parser.walk_synchronize b.parser.reaches_synchronize (by simp)
  | .report failure, _ =>
    ⟨[b.parser.report failure], (Parser.Step.note _).walk, .note _ .refl,
      report_reports b.parser failure⟩
  | .program, _ => .apply (Trail.program (Trail.within _)) b.parser.always_parseProgram _ (by simp)
  | .statement, _ => .apply (Trail.any (Trail.within _)) rfl _ (by simp)
  | .binding, _ => .apply (Trail.binding (Trail.within _)) rfl _ (by simp)
  | .result, _ => .apply (Trail.result (Trail.within _)) rfl _ (by simp)
  | .expressionStatement, _ => .apply (Trail.expression (Trail.within _)) rfl _ (by simp)
  | .block, _ => .apply (Trail.block (Trail.within _)) b.parser.always_parseBlock _ (by simp)
  | .expression bound, _ => .applyKeeping (Trail.within _ bound) rfl
  | .opening rule, _ => .apply (Trail.opening (Trail.within _) rule) rfl _ (by simp)
  | .continuation rule, _ => .applyKeeping (Trail.continuation (Trail.within _) b.left rule) rfl
  | .parameters, _ => .apply Trail.parameters rfl _ (by simp)
  | .items closing, _ => .apply (Trail.items (Trail.within _) closing) rfl _ (by simp)
  | .setOpening _ _, never | .register _ _ _, never | .dropOpening _, never
  | .dropContinuation _, never | .setPrecedence _ _, never => absurd never Bool.false_ne_true

theorem apply_ne_refused (b : Bench) (rule : Rule α) {answer : α → Answer}
    (built : ∀ a, answer a ≠ .refused) : (b.apply rule answer).1 ≠ .refused := by
  unfold apply
  cases rule b.parser with
  | mk result q =>
    cases result with
    | ok a => exact built a
    | error failure => exact nofun

theorem applyKeeping_ne_refused (b : Bench) (rule : Rule Expr) :
    (b.applyKeeping rule).1 ≠ .refused := by
  unfold applyKeeping
  cases rule b.parser with
  | mk result q => cases result <;> exact nofun

theorem serve_eq_refused (b : Bench) (request : Request) :
    (b.serve request).1 = .refused ↔ request = .failure ∧ b.parser.diagnostics = [] := by
  cases request with
  | failure =>
    rw [← b.parser.lastFailure_eq_none_iff]
    simp only [serve, true_and]
    cases b.parser.lastFailure with
    | none => simp
    | some failure => simp
  | expect k =>
    simp only [serve, reduceCtorEq, false_and, iff_false]
    cases Rule.expect k b.parser with
    | mk result q => cases result <;> simp
  | expression bound =>
    exact ⟨fun refused => absurd refused (b.applyKeeping_ne_refused _), nofun⟩
  | continuation rule =>
    exact ⟨fun refused => absurd refused (b.applyKeeping_ne_refused _), nofun⟩
  | statement => exact ⟨fun refused => absurd refused (b.apply_ne_refused _ nofun), nofun⟩
  | _ => simp [serve, b.apply_ne_refused]

def after (b : Bench) (calls : List Call) : Bench := calls.foldl (fun b call => (b.serve call.1).2) b

def passes (b : Bench) : List Call → List Parser
  | [] => []
  | call :: calls => (b.turn call.1 call.2).passes ++ (b.serve call.1).2.passes calls

theorem walk_after (b : Bench) (calls : List Call) :
    b.parser.Walk (b.passes calls) (b.after calls).parser := by
  induction calls generalizing b with
  | nil => exact .stay
  | cons call calls ih => exact (b.turn call.1 call.2).walk.trans (ih _)

theorem reaches_after (b : Bench) (calls : List Call) :
    b.parser.Reaches (b.after calls).parser := by
  induction calls generalizing b with
  | nil => exact .refl
  | cons call calls ih => exact (b.turn call.1 call.2).reaches.trans (ih _)

theorem passes_append (b : Bench) (calls more : List Call) :
    b.passes (calls ++ more) = b.passes calls ++ (b.after calls).passes more := by
  induction calls generalizing b with
  | nil => rfl
  | cons call calls ih =>
    show (b.turn call.1 call.2).passes ++ (b.serve call.1).2.passes (calls ++ more) = _
    rw [ih, ← List.append_assoc]
    rfl

theorem after_mem_passes (b : Bench) {made calls : List Call} (first : made <+: calls) :
    (b.after made).parser ∈ b.parser :: b.passes calls := by
  obtain ⟨more, rfl⟩ := first
  rw [passes_append, ← List.cons_append]
  exact List.mem_append_left _ (b.walk_after made).end_mem

/-- What holds between two calls: no expression is being parsed, nothing is refused but the failure of a
parser that has none, and a failure that is answered with is the last one from then on. -/
structure AtRest (b : Bench) : Prop where
  depth : b.parser.depth = 0
  refuses : ∀ call : Call,
    (b.serve call.1).1 = .refused ↔ call.1 = .failure ∧ b.parser.diagnostics = []
  reports : ∀ (call : Call) (failure : Failure), (b.serve call.1).1 = .failed failure →
    (b.serve call.1).2.parser.lastFailure = some failure

theorem atRest_after {b : Bench} (fresh : b.parser.depth = 0) (calls : List Call) :
    (b.after calls).AtRest where
  depth := by rw [(b.reaches_after calls).depth, fresh]
  refuses call := serve_eq_refused _ call.1
  reports call := (turn _ call.1 call.2).reports

end Bench

/-- What holds of a parser at every moment: expressions are nested no deeper than is accepted, and the last
failure is there if anything was reported, with the last diagnostic. -/
structure Parser.Sound (maxDepth : Int) (p : Parser) : Prop where
  depth : (p.depth : Int) ≤ max maxDepth 0
  last : p.lastFailure.map Failure.diagnostic = p.diagnostics.getLast?

/-- Whatever is asked of a parser over a list of tokens, in whatever order, all that it ever is makes
up one walk, and each parser of this walk is sound; the window stands on two consecutive tokens of the
list, with its end token behind it for ever, and only moves forward; and diagnostics are only
ever appended. Between the calls the parser is at rest. -/
theorem parser_is_sound_under_any_use (tokens : List Token) (maxDepth : Int) (calls : List Call) :
    let start := Bench.onSource (.ofList tokens) maxDepth
    let history := start.parser :: start.passes calls
    start.parser.Walk (start.passes calls) (start.after calls).parser ∧
      (∀ p ∈ history, p.Sound maxDepth) ∧
      (∃ places : List Nat, places.Pairwise (· ≤ ·) ∧
        List.Forall₂ (Parser.StandsAt (tokens ++ₛ Stream'.const (Parser.finish tokens)))
          places history) ∧
      history.Pairwise (fun p q => p.diagnostics <+: q.diagnostics) ∧
      ∀ made, made <+: calls → (start.after made).parser ∈ history ∧ (start.after made).AtRest := by
  intro start history
  have walk : start.parser.Walk (start.passes calls) (start.after calls).parser :=
    start.walk_after calls
  have sound : ∀ p ∈ history, p.Sound maxDepth := by
    intro p member
    have room : (start.parser.depth : Int) ≤ max start.parser.maxDepth 0 := Int.le_max_right _ _
    exact ⟨walk.depth_le room p member, p.lastFailure_diagnostic⟩
  have places := walk.standsAt (n := 0) (Parser.upcoming_ofList tokens maxDepth)
  obtain ⟨further, ordered, stands⟩ := places
  refine ⟨walk, sound, ⟨0 :: further, ordered, stands⟩, walk.diagnostics, ?_⟩
  intro made first
  exact ⟨start.after_mem_passes first, Bench.atRest_after rfl made⟩

end PrattFrontEnd
