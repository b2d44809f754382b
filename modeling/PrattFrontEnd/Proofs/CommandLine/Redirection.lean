import PrattFrontEnd.Proofs.CommandLine.Arguments
import PrattFrontEnd.Proofs.CommandLine.Files
import PrattFrontEnd.Proofs.CommandLine.Processing

/-!
Output into a file, and the exit statuses. The text that a run shows is what it writes when it is given a
file instead, and a run that fails has written nothing. Main statement:
`redirection_and_statuses_agree`.
-/
namespace PrattFrontEnd.CommandLine

def Storage.after {σ : Type} (storage : Storage σ) (s : σ) (r : Report) : σ :=
  match r.written with
  | none => s
  | some (name, text) => storage.write s name text.toUTF8.toList

theorem Storage.after_of_unwritten {σ : Type} {storage : Storage σ} {s : σ} {r : Report}
    (unwritten : r.written = none) : storage.after s r = s := by
  rw [after, unwritten]

section

variable {host : Host} {disk : Disk} {arguments : List String} {input : List (Option String)}

theorem runOn_of_process {o : Options} {source : String} (isOpen : host.console.IsOpen)
    (asked : taskUnder host.convention arguments = .process o source) :
    runOn host disk arguments input = process host.room disk o source := by
  rw [runOn, asked, process_eq_report]
  exact carryOut_of_open isOpen _

theorem written_of_stop {convention : Convention} {report : Report}
    (asked : taskUnder convention arguments = .stop report) : report.written = none := by
  unfold taskUnder at asked
  split at asked
  · cases asked
  · split at asked
    · cases asked
      rfl
    · cases asked
      rfl
    · split at asked
      · cases asked
      · split at asked <;> cases asked

theorem runOn_written_of_failed (takes : host.console.TakesNotes)
    (failed : (runOn host disk arguments input).status = 2) :
    (runOn host disk arguments input).written = none := by
  unfold runOn at failed ⊢
  cases asked : taskUnder host.convention arguments with
  | session maxDepth verbose => rfl
  | process o source =>
    rw [asked] at failed
    exact carryOut_written_of_failed takes failed
  | stop report => exact written_of_stop asked

end

section

variable {room : Nat} {disk : Disk} {o : Options} {source : String}

theorem finished_shown (bare : o.target = none) (plain : o.pretty = false) (w : Work)
    (result : String) :
    Report.finished o w result =
      ⟨w.status, line result, trace o.verbose w.log ++ account o.verbose w.diagnostics, none⟩ := by
  simp [Report.finished, Work.shown, delivery, bare, plain]

theorem finished_written {target : String} (aims : o.target = some target)
    (plain : o.pretty = false) (w : Work) (result : String) :
    Report.finished o w result =
      ⟨w.status, "", trace o.verbose w.log ++ account o.verbose w.diagnostics,
        some (target, line result)⟩ := by
  simp [Report.finished, Work.shown, delivery, aims, plain, Effect.shown]

theorem target_of_named {out : String} (named : out ≠ "") :
    Options.target { o with out := some out } = some out := by
  simp [Options.target, named]

theorem process_redirected {out : String} (bare : o.target = none) (plain : o.pretty = false)
    (named : out ≠ "") (clear : disk.obstacle out = none)
    (ended : (process room disk o source).status ≠ 2) :
    process room disk { o with out := some out } source =
      { process room disk o source with
        stdout := "", written := some (out, (process room disk o source).stdout) } := by
  obtain ⟨text, result, loaded, made, finished⟩ := finished_of_status ended
  have aims := target_of_named (o := o) named
  have free : blockage disk { o with out := some out } = none := by
    rw [blockage, aims, Option.bind_some, clear, Option.map_none]
  have redirected := process_of_made (o := { o with out := some out }) loaded made free
  rw [redirected, finished, finished_shown bare plain]
  exact finished_written aims plain _ _

theorem process_reports (ended : (process room disk o source).status ≠ 2) :
    ∃ text, load disk o source = .ok text ∧
      (process room disk o source).status = (if found o text = [] then 0 else 1) ∧
      (process room disk o source).stderr =
        trace o.verbose (passed o text) ++ account o.verbose (found o text) := by
  obtain ⟨text, result, loaded, made, finished⟩ := finished_of_status ended
  obtain ⟨diagnostics, log⟩ := work_of_made made
  refine ⟨text, loaded, ?_, ?_⟩
  · rw [finished, ← diagnostics]
    rfl
  · rw [finished, ← diagnostics, ← log]
    rfl

end

/-- Wherever files are kept: when a run without a file and banners comes to its end, the run that differs
from it in having a file shows nothing, leaves in the file what the other shows, and agrees with it in
all else. No run that fails changes a file. A run that comes to its end reports every diagnostic once
and in order, between the log and their number if these are wanted, and its status is one if there are
any and zero otherwise. For a failure this only needs that the note on a file is not refused, and for
the rest that no output is. -/
theorem redirection_and_statuses_agree {σ : Type} (storage : Storage σ) (host : Host) :
    (∀ (s : σ) (input : List (Option String)) (shown redirected : List String)
        (o : Options) (source out : String),
        host.console.IsOpen →
        taskUnder host.convention shown = .process o source → o.out = none → o.pretty = false →
        taskUnder host.convention redirected = .process { o with out := some out } source →
        out ≠ "" → (storage.disk s).obstacle out = none → storage.Keeps s out →
        (runOn host (storage.disk s) shown input).status = 0 ∨
          (runOn host (storage.disk s) shown input).status = 1 →
        (runOn host (storage.disk s) redirected input).stdout = "" ∧
          (storage.disk (storage.after s (runOn host (storage.disk s) redirected input))).read out =
            .ok (runOn host (storage.disk s) shown input).stdout.toUTF8.toList ∧
          (runOn host (storage.disk s) redirected input).stderr =
            (runOn host (storage.disk s) shown input).stderr ∧
          (runOn host (storage.disk s) redirected input).status =
            (runOn host (storage.disk s) shown input).status) ∧
      (∀ (s : σ) (arguments : List String) (input : List (Option String)),
        host.console.TakesNotes → (runOn host (storage.disk s) arguments input).status = 2 →
        storage.after s (runOn host (storage.disk s) arguments input) = s) ∧
      ∀ (s : σ) (arguments : List String) (input : List (Option String)) (o : Options)
        (source : String),
        host.console.IsOpen → taskUnder host.convention arguments = .process o source →
        (runOn host (storage.disk s) arguments input).status ≠ 2 →
        ∃ text, load (storage.disk s) o source = .ok text ∧
          (runOn host (storage.disk s) arguments input).status =
            (if found o text = [] then 0 else 1) ∧
          (runOn host (storage.disk s) arguments input).stderr =
            trace o.verbose (passed o text) ++
              (lines ((found o text).map fun d => "parser error: " ++ d.message) ++
                tally o.verbose (found o text)) := by
  refine ⟨?_, ?_, ?_⟩
  · intro s input shown redirected o source out isOpen asked bare plain askedToo named clear keeps
      ended
    rw [runOn_of_process isOpen asked] at ended ⊢
    rw [runOn_of_process isOpen askedToo]
    have target : o.target = none := by rw [Options.target, bare, Option.filter_none]
    have finished : (process host.room (storage.disk s) o source).status ≠ 2 := by omega
    rw [process_redirected target plain named clear finished]
    exact ⟨rfl, keeps _, rfl, rfl⟩
  · intro s arguments input takes failed
    exact Storage.after_of_unwritten (runOn_written_of_failed takes failed)
  · intro s arguments input o source isOpen asked finished
    rw [runOn_of_process isOpen asked] at finished ⊢
    exact process_reports finished

theorem obstacle_at_top : (⟨[], []⟩ : FileTree).disk.obstacle "b" = none := by
  have steps : "b".splitOn "/" = ["b"] := by
    rw [String.splitOn, if_neg (by decide), String.splitOnAux, if_neg (by decide +kernel),
      if_neg (by decide +kernel), String.splitOnAux, if_pos (by decide +kernel)]
    decide +kernel
  have located : (⟨[], []⟩ : FileTree).locate "b" = .ok ["b"] := by
    rw [FileTree.locate, if_neg (by decide +kernel), if_neg (by decide +kernel), steps]
    rfl
  show FileTree.obstacle _ "b" = none
  rw [FileTree.obstacle, located]
  decide +kernel

/-- The JSON of a text with a statement that is dropped goes to a file as it would be shown, and a file
of another sort is refused. -/
theorem json_with_diagnostic_is_redirected :
    let host : Host := ⟨.current, .takesAll, Json.commandRoom, Json.sessionRoom⟩
    let tree : FileTree := ⟨[], []⟩
    let o : Options := ⟨some "let = 1; a + b", true, true, false, none, false, 7, false, false⟩
    let shown := spelled true true false 7 none "let = 1; a + b"
    let redirected := spelled true true false 7 (some "b") "let = 1; a + b"
    (runOn host tree.disk redirected []).stdout = "" ∧
      (FileTree.storage.after tree (runOn host tree.disk redirected [])).disk.read "b" =
        .ok (runOn host tree.disk shown []).stdout.toUTF8.toList ∧
      FileTree.storage.after tree (runOn host tree.disk ["a.txt"] []) = tree ∧
      ∃ text, load tree.disk o "let = 1; a + b" = .ok text ∧
        (runOn host tree.disk shown []).stderr =
          trace false (passed o text) ++
            (lines ((found o text).map fun d => "parser error: " ++ d.message) ++
              tally false (found o text)) := by
  intro host tree o shown redirected
  have isOpen : host.console.IsOpen := fun _ _ => rfl
  have asked := task_spelled .current true true false (by decide) (by decide : (7 : Int) ≤ depthLimit)
    none "let = 1; a + b"
  have askedToo := task_spelled .current true true false (by decide)
    (by decide : (7 : Int) ≤ depthLimit) (some "b") "let = 1; a + b"
  have finished : (runOn host tree.disk shown []).status = 1 := by decide +kernel
  have agrees := redirection_and_statuses_agree FileTree.storage host
  obtain ⟨silent, moved, _⟩ := agrees.1 tree [] shown redirected o _ "b" isOpen asked rfl rfl askedToo
    (by decide) obstacle_at_top (FileTree.keeps_of_clear obstacle_at_top) (Or.inr finished)
  have kept := agrees.2.1 tree ["a.txt"] [] (fun _ _ => rfl) (by decide +kernel)
  obtain ⟨text, loaded, _, reported⟩ :=
    agrees.2.2 tree shown [] o _ isOpen asked (by
      show (runOn host tree.disk shown []).status ≠ 2
      rw [finished]
      decide)
  exact ⟨silent, moved, kept, text, loaded, reported⟩

end PrattFrontEnd.CommandLine
