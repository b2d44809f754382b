import PrattFrontEnd.Proofs.CommandLine.Console
import PrattFrontEnd.Proofs.Parser.Interruption

/-!
A run of the command on a source. It ends with a fault at one of its steps, and then there is no file, or
else its report has everything in its place. Main statements: `process_cases` and
`carryOut_written_of_failed`; `carryOut_of_refused_note` shows the one output that may not be refused.
-/
namespace PrattFrontEnd

theorem readProgram_ok {source : String} {maxDepth : Int} {parsed : Parsed}
    (read : readProgram source maxDepth = .ok parsed) : parsed = parse source maxDepth :=
  Parser.read_ok read

namespace CommandLine

theorem process_eq_report (room : Nat) (disk : Disk) (o : Options) (source : String) :
    process room disk o source = (course room disk o source).report :=
  carryOut_of_open (fun _ _ => rfl) _

/-- What the parse of a run finds. A listing is made without a parse. -/
def found (o : Options) (text : String) : List Diagnostic :=
  if o.tokens then [] else (parse text o.maxDepth).diagnostics

def passed (o : Options) (text : String) : List Event :=
  if o.tokens then [] else (parse text o.maxDepth).log

def trace (verbose : Bool) (events : List Event) : String := if verbose then logged events else ""

def tally (verbose : Bool) (diagnostics : List Diagnostic) : String :=
  if verbose && diagnostics ≠ [] then
    line ("monk.monk_cli - INFO - " ++ toString diagnostics.length ++ " parser error(s)")
  else ""

def account (verbose : Bool) (diagnostics : List Diagnostic) : String :=
  lines (diagnostics.map fun d => "parser error: " ++ d.message) ++ tally verbose diagnostics

def Report.failed (stdout stderr : String) (fault : Fault) : Report :=
  ⟨2, stdout, stderr ++ line ("error: " ++ fault.message), none⟩

namespace Work

variable {w : Work} {o : Options} {text : String} {verbose : Bool}

def shown (w : Work) (o : Options) (text : String) : String :=
  if o.pretty then framed w.title text else if o.target.isSome then "" else line text

theorem join_empty {texts : List String} (empty : ∀ t ∈ texts, t = "") : String.join texts = "" := by
  induction texts with
  | nil => rfl
  | cons t texts ih =>
    rw [List.forall_mem_cons] at empty
    rw [String.join_cons, empty.1, ih empty.2, String.append_empty]

theorem told_traced : String.join ((w.traced verbose).map Effect.told) = trace verbose w.log := by
  unfold traced trace logged
  cases verbose with
  | false => rfl
  | true => simp [Function.comp_def, Effect.told]

theorem told_reported :
    String.join ((w.reported verbose).map Effect.told) = account verbose w.diagnostics := by
  unfold reported account tally lines
  rw [List.map_append, String.join_append, List.map_map, List.map_map]
  split
  · rw [List.map_singleton, String.join_cons, String.join_nil, String.append_empty]
    rfl
  · rfl

theorem told_displayed : String.join ((w.displayed o text).map Effect.told) = "" := by
  unfold displayed
  split
  · rfl
  · split <;> rfl

theorem shown_displayed : String.join ((w.displayed o text).map Effect.shown) = w.shown o text := by
  unfold displayed shown
  split
  · rw [List.map_singleton, String.join_cons, String.join_nil, String.append_empty]
    rfl
  · split
    · rfl
    · rw [List.map_singleton, String.join_cons, String.join_nil, String.append_empty]
      rfl

theorem beside {effect : Effect} (member : effect ∈ w.traced verbose ++ w.reported verbose) :
    effect.shown = "" ∧ effect.written? = none := by
  simp only [traced, reported, List.mem_append, List.mem_ite_nil_right, List.mem_map,
    List.mem_singleton] at member
  rcases member with ⟨_, _, _, rfl⟩ | ⟨_, _, rfl⟩ | ⟨_, rfl⟩ <;> exact ⟨rfl, rfl⟩

theorem front_bare : ∀ effect ∈ w.front o text, effect.written? = none := by
  intro effect member
  rw [front, List.mem_append] at member
  rcases member with early | late
  · exact (beside early).2
  · unfold displayed at late
    split at late
    · rw [List.mem_singleton.1 late]
      rfl
    · split at late
      · cases late
      · rw [List.mem_singleton.1 late]
        rfl

theorem shown_front : String.join ((w.front o text).map Effect.shown) = w.shown o text := by
  have silent : ∀ t ∈ (w.traced o.verbose ++ w.reported o.verbose).map Effect.shown, t = "" := by
    intro t member
    obtain ⟨effect, inside, rfl⟩ := List.mem_map.1 member
    exact (beside inside).1
  rw [front, List.map_append, String.join_append, join_empty silent, shown_displayed,
    String.empty_append]

theorem told_front : String.join ((w.front o text).map Effect.told) =
    trace o.verbose w.log ++ account o.verbose w.diagnostics := by
  rw [front, List.map_append, List.map_append, String.join_append, String.join_append, told_traced,
    told_reported, told_displayed, String.append_empty]

theorem traced_bare : ∀ effect ∈ w.traced verbose, effect.shown = "" ∧ effect.written? = none :=
  fun _ member => beside (List.mem_append_left (w.reported verbose) member)

end Work

def Report.finished (o : Options) (w : Work) (text : String) : Report where
  status := w.status
  stdout := w.shown o text ++ String.join ((delivery o text).map Effect.shown)
  stderr := trace o.verbose w.log ++ account o.verbose w.diagnostics
  written := o.target.map fun target => (target, line text)

section

variable {room : Nat} {disk : Disk} {o : Options} {source text result : String}

theorem course_of_unloaded {fault : Fault} (loaded : load disk o source = .error fault) :
    course room disk o source = ⟨[], .error fault⟩ := by
  rw [course, loaded]

theorem course_of_unmade {fault : Fault} (loaded : load disk o source = .ok text)
    (unmade : (work room o text).text = .error fault) :
    course room disk o source = ⟨(work room o text).traced o.verbose, .error fault⟩ := by
  rw [course, loaded]
  simp only [unmade]

theorem course_of_blocked {fault : Fault} (loaded : load disk o source = .ok text)
    (made : (work room o text).text = .ok result) (blocked : blockage disk o = some fault) :
    course room disk o source = ⟨(work room o text).front o result, .error fault⟩ := by
  rw [course, loaded]
  simp only [made, blocked]

theorem course_of_made (loaded : load disk o source = .ok text)
    (made : (work room o text).text = .ok result) (clear : blockage disk o = none) :
    course room disk o source =
      ⟨(work room o text).front o result ++ delivery o result, .ok (work room o text).status⟩ := by
  rw [course, loaded]
  simp only [made, clear]

theorem report_of_failed {effects : List Effect} {fault : Fault}
    (bare : ∀ effect ∈ effects, effect.written? = none) :
    (Course.mk effects (.error fault)).report =
      .failed (String.join (effects.map Effect.shown)) (String.join (effects.map Effect.told))
        fault := by
  have nothing : effects.findSome? Effect.written? = none := List.findSome?_eq_none_iff.2 bare
  simp [Course.report, Console.report, Report.failed, List.findSome?_append, nothing, Effect.shown,
    Effect.told, Effect.written?]

theorem process_of_unmade {fault : Fault} (loaded : load disk o source = .ok text)
    (unmade : (work room o text).text = .error fault) :
    process room disk o source = .failed "" (trace o.verbose (work room o text).log) fault := by
  have silent : ∀ t ∈ ((work room o text).traced o.verbose).map Effect.shown, t = "" := by
    intro t member
    obtain ⟨effect, inside, rfl⟩ := List.mem_map.1 member
    exact (Work.traced_bare effect inside).1
  rw [process_eq_report, course_of_unmade loaded unmade,
    report_of_failed fun effect member => (Work.traced_bare effect member).2, Work.told_traced,
    Work.join_empty silent]

theorem delivery_told : String.join ((delivery o text).map Effect.told) = "" := by
  unfold delivery
  cases o.target with
  | none => rfl
  | some target =>
    cases o.pretty <;> rfl

theorem delivery_written : (delivery o text).findSome? Effect.written? =
    o.target.map fun target => (target, line text) := by
  unfold delivery
  cases o.target <;> rfl

theorem process_of_made (loaded : load disk o source = .ok text)
    (made : (work room o text).text = .ok result) (clear : blockage disk o = none) :
    process room disk o source = .finished o (work room o text) result := by
  have nothing : ((work room o text).front o result).findSome? Effect.written? = none :=
    List.findSome?_eq_none_iff.2 Work.front_bare
  rw [process_eq_report, course_of_made loaded made clear]
  simp only [Course.report, Console.report, Report.finished, List.map_append, String.join_append,
    Work.shown_front, Work.told_front, delivery_told, String.append_empty, List.findSome?_append,
    nothing, delivery_written, Option.none_or]

theorem process_of_blocked {fault : Fault} (loaded : load disk o source = .ok text)
    (made : (work room o text).text = .ok result) (blocked : blockage disk o = some fault) :
    process room disk o source =
      .failed ((work room o text).shown o result)
        (trace o.verbose (work room o text).log ++
          account o.verbose (work room o text).diagnostics) fault := by
  rw [process_eq_report, course_of_blocked loaded made blocked, report_of_failed Work.front_bare,
    Work.shown_front, Work.told_front]

theorem process_cases (room : Nat) (disk : Disk) (o : Options) (source : String) :
    (∃ stdout stderr fault, process room disk o source = .failed stdout stderr fault) ∨
      ∃ text result, load disk o source = .ok text ∧ (work room o text).text = .ok result ∧
        process room disk o source = .finished o (work room o text) result := by
  cases loaded : load disk o source with
  | error fault =>
    left
    refine ⟨"", "", fault, ?_⟩
    rw [process_eq_report, course_of_unloaded loaded]
    exact report_of_failed (List.forall_mem_nil _)
  | ok text =>
    cases made : (work room o text).text with
    | error fault => exact Or.inl ⟨_, _, fault, process_of_unmade loaded made⟩
    | ok result =>
      cases blocked : blockage disk o with
      | some fault => exact Or.inl ⟨_, _, fault, process_of_blocked loaded made blocked⟩
      | none => exact Or.inr ⟨text, result, rfl, made, process_of_made loaded made blocked⟩

theorem finished_of_status (ended : (process room disk o source).status ≠ 2) :
    ∃ text result, load disk o source = .ok text ∧ (work room o text).text = .ok result ∧
      process room disk o source = .finished o (work room o text) result := by
  rcases process_cases room disk o source with ⟨stdout, stderr, fault, failed⟩ | finished
  · rw [failed] at ended
    exact absurd rfl ended
  · exact finished

theorem work_of_read {parsed : Parsed} (parses : o.tokens = false)
    (read : readProgram text o.maxDepth = .ok parsed) :
    work room o text = ⟨(rendition room o parsed.program).1, parsed.diagnostics, parsed.log,
      (rendition room o parsed.program).2⟩ := by
  rw [work, parses, if_neg Bool.false_ne_true, read]

theorem work_of_made (made : (work room o text).text = .ok result) :
    (work room o text).diagnostics = found o text ∧ (work room o text).log = passed o text := by
  unfold found passed
  cases parses : o.tokens with
  | true =>
    rw [work, parses, if_pos rfl]
    exact ⟨rfl, rfl⟩
  | false =>
    cases read : readProgram text o.maxDepth with
    | error interruption =>
      rw [work, parses, if_neg Bool.false_ne_true, read] at made
      cases made
    | ok parsed =>
      rw [work_of_read parses read, readProgram_ok read]
      exact ⟨rfl, rfl⟩

theorem Work.status_ne_two (w : Work) : w.status ≠ 2 := by
  unfold status
  split <;> decide

end

section

variable {console : Console} {room : Nat} {disk : Disk} {o : Options} {source text result : String}

def Console.TakesNotes (console : Console) : Prop :=
  ∀ done target, console.refusal? done (.noted target) = none

theorem Console.perform_delivery (takes : console.TakesNotes) (done : List Effect) :
    console.perform done (delivery o text) = (done ++ delivery o text, none) := by
  unfold delivery
  cases o.target with
  | none => simp [perform]
  | some target =>
    have written : console.attempt done (.writes target (line text)) =
        .ok (done ++ [.writes target (line text)]) := rfl
    cases o.pretty with
    | false => simp [perform, written]
    | true => simp [perform, written, attempt_of_taken (takes _ target)]

/-- A run that fails writes nothing, whatever output was refused but a note on a file. -/
theorem carryOut_written_of_failed (takes : console.TakesNotes)
    (failed : (console.carryOut (course room disk o source)).status = 2) :
    (console.carryOut (course room disk o source)).written = none := by
  cases loaded : load disk o source with
  | error fault =>
    rw [course_of_unloaded loaded]
    exact carryOut_written_of_bare console (List.forall_mem_nil _)
  | ok text =>
    cases made : (work room o text).text with
    | error fault =>
      rw [course_of_unmade loaded made]
      exact carryOut_written_of_bare console fun effect member => (Work.traced_bare effect member).2
    | ok result =>
      cases blocked : blockage disk o with
      | some fault =>
        rw [course_of_blocked loaded made blocked]
        exact carryOut_written_of_bare console Work.front_bare
      | none =>
        have kept : (console.perform [] ((work room o text).front o result)).1.findSome?
            Effect.written? = none := Console.perform_bare Work.front_bare
        rw [course_of_made loaded made blocked] at failed ⊢
        -- A stop comes before the file or not at all.
        rcases performed : console.perform [] ((work room o text).front o result) with
          ⟨done, _ | reason⟩
        · unfold Console.carryOut at failed
          rw [Console.perform_append_of_done performed, Console.perform_delivery takes] at failed
          exact absurd failed (work room o text).status_ne_two
        · rw [carryOut_written, Console.perform_append_of_stopped performed]
          rw [performed] at kept
          exact kept

theorem framed_head (title text : String) : (framed title text).toList.head? = some '=' := by
  have first : banner.toList.head? = some '=' := by decide
  rw [framed, lines, List.map_cons, String.join_cons, line, String.toList_append,
    String.toList_append, List.head?_append, List.head?_append, first]
  rfl

theorem noted_head (out : String) : (Effect.noted out).shown.toList.head? = some '(' := by
  show (line ("(wrote to " ++ out ++ ")")).toList.head? = _
  simp [line, String.toList_append]

theorem Work.front_not_noted {w : Work} {effect : Effect} (out : String) (banners : o.pretty = true)
    (member : effect ∈ w.front o result) : effect ≠ .noted out := by
  -- Banners start with another character than the note.
  rintro rfl
  have starts := noted_head out
  rw [front, List.mem_append] at member
  rcases member with early | late
  · rw [(beside early).1] at starts
    cases starts
  · rw [displayed, if_pos banners, List.mem_singleton] at late
    rw [late, Effect.shown, framed_head] at starts
    exact absurd starts (by decide)

/-- Where just the note on the file is refused, the run fails although the file is written. -/
theorem carryOut_of_refused_note {out reason : String} (banners : o.pretty = true)
    (aims : o.target = some out) (clear : disk.obstacle out = none)
    (loaded : load disk o source = .ok text) (made : (work room o text).text = .ok result)
    (others : ∀ done effect, effect ≠ .noted out → console.refusal? done effect = none)
    (refused : ∀ done, console.refusal? done (.noted out) = some reason) :
    (console.carryOut (course room disk o source)).status = 2 ∧
      (console.carryOut (course room disk o source)).written = some (out, line result) := by
  have free : blockage disk o = none := by
    rw [blockage, aims, Option.bind_some, clear, Option.map_none]
  have delivered : delivery o result = [.writes out (line result)] ++ [.noted out] := by
    rw [delivery, aims, banners]
    rfl
  rw [course_of_made loaded made free, delivered, ← List.append_assoc]
  have taken : console.perform [] ((work room o text).front o result ++ [.writes out (line result)]) =
      ([] ++ ((work room o text).front o result ++ [.writes out (line result)]), none) := by
    apply Console.perform_of_taken
    intro before effect member
    apply others
    rcases List.mem_append.1 member with early | last
    · exact Work.front_not_noted out banners early
    · rw [List.mem_singleton.1 last]
      intro same
      cases same
  have files : ((work room o text).front o result ++ [Effect.writes out (line result)]).findSome?
      Effect.written? = some (out, line result) := by
    rw [List.findSome?_append, List.findSome?_eq_none_iff.2 Work.front_bare]
    rfl
  generalize (work room o text).front o result ++ [Effect.writes out (line result)] = before
    at taken files ⊢
  have stops : console.attempt before (.noted out) = .error reason :=
    Console.attempt_of_refused (refused before)
  have performed : console.perform [] (before ++ [.noted out]) = (before, some reason) := by
    rw [Console.perform_append_of_done taken, List.nil_append, Console.perform, stops]
  have told : console.refusal? before (.tells (line ("error: " ++ reason))) = none := by
    apply others
    intro same
    cases same
  refine ⟨?_, ?_⟩
  · unfold Console.carryOut
    rw [performed]
    show (console.stopped before reason).status = 2
    rw [Console.stopped_of_told told]
    rfl
  · rw [carryOut_written, performed]
    exact files

end

end CommandLine

end PrattFrontEnd
