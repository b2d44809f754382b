import PrattFrontEnd.CommandLine.Run

/-!
What a console does with some effects. The first that it refuses ends the run, unless it is a line of
the log, and where it refuses nothing the report is that of the whole course. Main statements:
`carryOut_of_open` and `carryOut_written_of_bare`.
-/
namespace PrattFrontEnd.CommandLine

namespace Console

def IsOpen (console : Console) : Prop := ∀ done effect, console.refusal? done effect = none

variable {console : Console} {done effects : List Effect}

theorem attempt_of_taken {effect : Effect} (taken : console.refusal? done effect = none) :
    console.attempt done effect = .ok (done ++ [effect]) := by
  unfold attempt
  rw [taken]
  cases effect <;> rfl

theorem attempt_of_refused {text reason : String}
    (refused : console.refusal? done (.shows text) = some reason) :
    console.attempt done (.shows text) = .error reason := by
  unfold attempt
  rw [refused]

theorem attempt_bare {effect : Effect} {after : List Effect} (bare : effect.written? = none)
    (attempted : console.attempt done effect = .ok after) :
    after.findSome? Effect.written? = done.findSome? Effect.written? := by
  unfold attempt at attempted
  split at attempted
  · cases bare
  · cases attempted
    simp [List.findSome?_append, bare]
  · cases attempted
    rfl
  · cases attempted

theorem perform_of_taken
    (taken : ∀ before, ∀ effect ∈ effects, console.refusal? before effect = none) :
    console.perform done effects = (done ++ effects, none) := by
  induction effects generalizing done with
  | nil => rw [perform, List.append_nil]
  | cons effect effects ih =>
    rw [perform, attempt_of_taken (taken done effect List.mem_cons_self)]
    simp only
    rw [ih fun before e member => taken before e (List.mem_cons_of_mem _ member),
      List.append_assoc, List.singleton_append]

theorem perform_append_of_done {first second after : List Effect}
    (all : console.perform done first = (after, none)) :
    console.perform done (first ++ second) = console.perform after second := by
  induction first generalizing done with
  | nil =>
    cases all
    rfl
  | cons effect first ih =>
    rw [List.cons_append, perform]
    rw [perform] at all
    cases result : console.attempt done effect with
    | ok next =>
      rw [result] at all
      exact ih all
    | error reason =>
      rw [result] at all
      cases all

theorem perform_append_of_stopped {first second after : List Effect} {reason : String}
    (stop : console.perform done first = (after, some reason)) :
    console.perform done (first ++ second) = (after, some reason) := by
  induction first generalizing done with
  | nil => cases stop
  | cons effect first ih =>
    rw [List.cons_append, perform]
    rw [perform] at stop
    cases result : console.attempt done effect with
    | ok next =>
      rw [result] at stop
      exact ih stop
    | error other =>
      rw [result] at stop
      exact stop

theorem perform_bare (bare : ∀ effect ∈ effects, effect.written? = none) :
    (console.perform done effects).1.findSome? Effect.written? =
      done.findSome? Effect.written? := by
  induction effects generalizing done with
  | nil => rfl
  | cons effect effects ih =>
    rw [List.forall_mem_cons] at bare
    rw [perform]
    cases result : console.attempt done effect with
    | ok after => exact (ih bare.2).trans (attempt_bare bare.1 result)
    | error reason => rfl

theorem stopped_of_told {message : String}
    (told : console.refusal? done (.tells (line ("error: " ++ message))) = none) :
    console.stopped done message = report 2 (done ++ [.tells (line ("error: " ++ message))]) := by
  unfold stopped
  simp only
  rw [told]

theorem stopped_written (console : Console) (message : String) :
    (console.stopped done message).written = done.findSome? Effect.written? := by
  unfold stopped
  simp only
  split
  · simp [report, List.findSome?_append, Effect.written?]
  · rfl

end Console

def Course.report (c : Course) : Report :=
  match c.outcome with
  | .error fault => Console.report 2 (c.effects ++ [.tells (line ("error: " ++ fault.message))])
  | .ok status => Console.report status c.effects

theorem carryOut_of_open {console : Console} (isOpen : console.IsOpen) (c : Course) :
    console.carryOut c = c.report := by
  have all : console.perform [] c.effects = (c.effects, none) :=
    Console.perform_of_taken fun before effect _ => isOpen before effect
  unfold Console.carryOut Course.report
  rw [all]
  cases c.outcome with
  | ok status => rfl
  | error fault => exact Console.stopped_of_told (isOpen _ _)

/-- The file in the report is the one that has been written by the end. -/
theorem carryOut_written (console : Console) (c : Course) :
    (console.carryOut c).written =
      (console.perform [] c.effects).1.findSome? Effect.written? := by
  unfold Console.carryOut
  rcases console.perform [] c.effects with ⟨done, _ | reason⟩
  · cases c.outcome with
    | ok status => rfl
    | error fault => exact Console.stopped_written console fault.message
  · exact Console.stopped_written console reason

theorem carryOut_written_of_bare (console : Console) {c : Course}
    (bare : ∀ effect ∈ c.effects, effect.written? = none) :
    (console.carryOut c).written = none :=
  (carryOut_written console c).trans (Console.perform_bare bare)

end PrattFrontEnd.CommandLine
