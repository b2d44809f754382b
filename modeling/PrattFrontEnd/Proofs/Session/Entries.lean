import PrattFrontEnd.Proofs.CommandLine.Processing
import PrattFrontEnd.Proofs.Session.Gathering

/-!
The entries of a session one by one. All that an entry leaves behind is the mode, which it changes if
it is one of the two commands; everything else is answered as a run of the command on that text would
be. Main statement: `session_answers_like_command_runs`.
-/
namespace PrattFrontEnd.Session

open CommandLine

/-- The complete entries that some lines make behind the lines of an entry that has been begun, up to
a line that leaves the session. -/
def entries (seen : List String) : List String → List String
  | [] => []
  | line :: rest =>
    if seen = [] ∧ leaves line = true then []
    else if 0 < braceBalance (joined (seen ++ [line])).toList then entries (seen ++ [line]) rest
    else Text.strip (joined (seen ++ [line])) :: entries [] rest

def toggled (command : String) (entries : List String) : Bool := entries.count command % 2 = 1

theorem toggled_cons (command e : String) (es : List String) :
    toggled command (e :: es) = (decide (e = command) ^^ toggled command es) := by
  unfold toggled
  by_cases same : e = command
  · have parity : es.count command % 2 = 0 ∨ es.count command % 2 = 1 := by omega
    rw [same, List.count_cons_self]
    rcases parity with even | odd
    · simp [even, show (es.count command + 1) % 2 = 1 by omega]
    · simp [odd, show (es.count command + 1) % 2 = 0 by omega]
  · simp [same]

variable {room : Nat} {maxDepth : Int} {asJson asTokens : Bool}

theorem enter_next (room : Nat) (maxDepth : Int) (asJson asTokens : Bool) (e : String) :
    ((between room maxDepth asJson asTokens).enter e).2 =
      between room maxDepth (asJson ^^ decide (e = ":json"))
        (asTokens ^^ decide (e = ":tokens")) := by
  unfold enter
  split
  · rename_i silent
    have json : e ≠ ":json" := by
      rintro rfl
      exact absurd silent (by decide)
    have tokens : e ≠ ":tokens" := by
      rintro rfl
      exact absurd silent (by decide)
    simp [json, tokens]
  · split
    · rename_i json
      subst json
      simp [between]
    · rename_i json
      split
      · rename_i tokens
        subst tokens
        simp [between]
      · rename_i tokens
        split <;> simp [json, tokens]

theorem receive_cases (seen : List String) (line : String) :
    (seen = [] ∧ leaves line = true ∧
        ((between room maxDepth asJson asTokens).gathering seen).receive line =
          (.say farewell, none)) ∨
      ¬ (seen = [] ∧ leaves line = true) ∧
        (0 < braceBalance (joined (seen ++ [line])).toList ∧
            ((between room maxDepth asJson asTokens).gathering seen).receive line =
              (.say "", some ((between room maxDepth asJson asTokens).gathering (seen ++ [line]))) ∨
          ¬ 0 < braceBalance (joined (seen ++ [line])).toList ∧
            ((between room maxDepth asJson asTokens).gathering seen).receive line =
              (between room maxDepth asJson asTokens).answer
                (Text.strip (joined (seen ++ [line])))) := by
  by_cases leaving : seen = [] ∧ leaves line = true
  · obtain ⟨rfl, leaving⟩ := leaving
    exact Or.inl ⟨rfl, leaving, receive_leaving leaving⟩
  · have stays : seen = [] → leaves line = false := fun empty => by
      rw [not_and] at leaving
      exact Bool.eq_false_iff.2 (leaving empty)
    refine Or.inr ⟨leaving, ?_⟩
    by_cases unfinished : 0 < braceBalance (joined (seen ++ [line])).toList
    · exact Or.inl ⟨unfinished, receive_unfinished stays unfinished⟩
    · exact Or.inr ⟨unfinished, receive_complete stays (Int.not_lt.1 unfinished)⟩

theorem enter_of_alive {s next : Session} {e : String} {response : Response}
    (alive : s.answer e = (response, some next)) : s.enter e = (response, next) := by
  unfold answer at alive
  cases broken : (s.enter e).1.fault.isSome with
  | true => simp [broken] at alive
  | false =>
    simp only [broken, Bool.false_eq_true, if_false, Prod.mk.injEq, Option.some.injEq] at alive
    exact Prod.ext alive.1 alive.2

theorem follow_cons_alive {s last : Session} {line : String} {lines : List String}
    {responses : List Response} (alive : s.follow (line :: lines) = (responses, some last)) :
    ∃ response next rest, s.receive line = (response, some next) ∧
      next.follow lines = (rest, some last) := by
  rw [follow] at alive
  split at alive
  · rename_i response next received
    have further : (next.follow lines).2 = some last := congrArg Prod.snd alive
    exact ⟨response, next, (next.follow lines).1, received, Prod.ext rfl further⟩
  · cases alive

theorem follow_alive (lines : List String) (seen : List String) (asJson asTokens : Bool)
    {responses : List Response} {last : Session}
    (alive : ((between room maxDepth asJson asTokens).gathering seen).follow lines =
      (responses, some last)) :
    ∃ left, last =
        (between room maxDepth (asJson ^^ toggled ":json" (entries seen lines))
          (asTokens ^^ toggled ":tokens" (entries seen lines))).gathering left ∧
      ∀ more, entries seen (lines ++ more) = entries seen lines ++ entries left more := by
  -- What an entry does to the mode is in the mode that the lines behind it start from, and what a
  -- line of an unfinished entry leaves is in the lines that have been seen.
  induction lines generalizing seen asJson asTokens responses with
  | nil =>
    cases alive
    exact ⟨seen, by simp [entries, toggled], fun more => rfl⟩
  | cons line lines ih =>
    obtain ⟨response, next, rest, received, further⟩ := follow_cons_alive alive
    rcases receive_cases seen line with
      ⟨_, _, ended⟩ | ⟨stays, ⟨unfinished, gathered⟩ | ⟨complete, answered⟩⟩
    · rw [ended] at received
      cases received
    · rw [gathered] at received
      cases received
      obtain ⟨left, same, divided⟩ := ih _ _ _ further
      have through (more : List String) :
          entries seen (line :: more) = entries (seen ++ [line]) more := by
        rw [entries, if_neg stays, if_pos unfinished]
      refine ⟨left, ?_, ?_⟩
      · rw [through]
        exact same
      · intro more
        rw [List.cons_append, through, through]
        exact divided more
    · rw [answered] at received
      have entered := enter_of_alive received
      have mode := enter_next room maxDepth asJson asTokens (Text.strip (joined (seen ++ [line])))
      rw [entered] at mode
      have idle : next = next.gathering [] := by
        rw [show next = _ from mode]
        rfl
      rw [idle, show next = _ from mode] at further
      obtain ⟨left, same, divided⟩ := ih _ _ _ further
      have through (more : List String) : entries seen (line :: more) =
          Text.strip (joined (seen ++ [line])) :: entries [] more := by
        rw [entries, if_neg stays, if_neg complete]
      refine ⟨left, ?_, ?_⟩
      · rw [through, toggled_cons, toggled_cons, ← Bool.xor_assoc, ← Bool.xor_assoc]
        exact same
      · intro more
        rw [List.cons_append, through, through, divided, List.cons_append]

theorem respond_follow (lines : List String) (s : Session) (shown : Response)
    {responses : List Response} {last : Session} (alive : s.follow lines = (responses, some last)) :
    ∃ front latest, front.length = lines.length ∧
      ∀ tail, s.respond shown (lines.map some ++ tail) = front ++ last.respond latest tail := by
  induction lines generalizing s shown responses with
  | nil =>
    cases alive
    exact ⟨[], shown, rfl, fun tail => rfl⟩
  | cons line lines ih =>
    obtain ⟨response, next, rest, received, further⟩ := follow_cons_alive alive
    obtain ⟨front, latest, length, behind⟩ := ih next response further
    refine ⟨{ shown with text := shown.text ++ s.prompt } :: front, latest, ?_, ?_⟩
    · rw [List.length_cons, List.length_cons, length]
    · intro tail
      rw [List.map_cons, List.cons_append, respond, received]
      simp only
      rw [behind, List.cons_append]

theorem follow_append {s last : Session} {lines : List String} {responses : List Response}
    (alive : s.follow lines = (responses, some last)) (more : List String) :
    (s.follow (lines ++ more)).2 = (last.follow more).2 := by
  induction lines generalizing s responses with
  | nil =>
    cases alive
    rfl
  | cons line lines ih =>
    obtain ⟨response, next, rest, received, further⟩ := follow_cons_alive alive
    rw [List.cons_append, follow_of_next received]
    exact ih further

theorem respond_head (s : Session) (shown : Response) (lines : List (Option String)) :
    (s.respond shown lines)[0]? = some { shown with text := shown.text ++ s.prompt } := by
  rcases lines with _ | ⟨_ | line, rest⟩
  · rfl
  · rfl
  · rw [respond]
    rfl

def textOptions (asJson asTokens : Bool) (maxDepth : Int) : Options :=
  { Options.default with string := true, json := asJson, tokens := asTokens, maxDepth }

/-- What a session prints for an entry of source text in some mode, in terms of a run on that text. -/
inductive Prints (disk : Disk) (room : Nat) (maxDepth : Int) (asJson asTokens : Bool) (e : String) :
    String → Prop where
  | tokens (listed : asTokens = true) :
      Prints disk room maxDepth asJson asTokens e
        (process room disk (textOptions false true defaultMaxDepth) e).stdout
  | program (parsed : asTokens = false)
      (clean : (process room disk (textOptions asJson false maxDepth) e).status = 0) :
      Prints disk room maxDepth asJson asTokens e
        (process room disk (textOptions asJson false maxDepth) e).stdout
  | diagnostics (parsed : asTokens = false) (found : (parse e maxDepth).diagnostics ≠ []) :
      Prints disk room maxDepth asJson asTokens e
        ("[error] >>> parser errors:\n" ++
          String.join ((parse e maxDepth).messages.map fun m => "\t" ++ m ++ "\n"))
  | fault {fault : Json.Fault} (parsed : asTokens = false)
      (clean : (parse e maxDepth).diagnostics = []) (json : asJson = true)
      (deep : (parse e maxDepth).program.toJsonWithin room = .error fault)
      (failed : process room disk (textOptions asJson false maxDepth) e =
        .failed "" "" (.json fault)) :
      Prints disk room maxDepth asJson asTokens e ("[error] >>> " ++ fault.message ++ "\n")

section

variable {disk : Disk} {e text : String}

theorem clean_of_status {asJson : Bool}
    (ended : (process room disk (textOptions asJson false maxDepth) e).status = 0) :
    (parse e maxDepth).diagnostics = [] := by
  obtain ⟨source, result, loaded, made, finished⟩ := finished_of_status (by rw [ended]; decide)
  have diagnostics := (work_of_made made).1
  rw [finished] at ended
  have status : (work room (textOptions asJson false maxDepth) source).status = 0 := ended
  have same : source = e := (Except.ok.inj loaded).symm
  rw [Work.status, diagnostics, same] at status
  by_contra faulty
  rw [if_neg (by exact faulty)] at status
  cases status

theorem Prints.unique {shown other : String}
    (first : Prints disk room maxDepth asJson asTokens e shown)
    (second : Prints disk room maxDepth asJson asTokens e other) : shown = other := by
  cases first with
  | tokens listed =>
    cases second with
    | tokens => rfl
    | program parsed | diagnostics parsed | fault parsed =>
      rw [listed] at parsed
      cases parsed
  | program parsed clean =>
    cases second with
    | tokens listed =>
      rw [listed] at parsed
      cases parsed
    | program => rfl
    | diagnostics _ found => exact absurd (clean_of_status clean) found
    | fault _ _ _ _ failed =>
      rw [failed] at clean
      cases clean
  | diagnostics parsed found =>
    cases second with
    | tokens listed =>
      rw [listed] at parsed
      cases parsed
    | program _ clean => exact absurd (clean_of_status clean) found
    | diagnostics => rfl
    | fault _ clean => exact absurd clean found
  | fault parsed clean _ _ failed =>
    cases second with
    | tokens listed =>
      rw [listed] at parsed
      cases parsed
    | program _ ended =>
      rw [failed] at ended
      cases ended
    | diagnostics _ found => exact absurd clean found
    | fault => rfl

theorem Prints.iff_eq (first : Prints disk room maxDepth asJson asTokens e text) (shown : String) :
    Prints disk room maxDepth asJson asTokens e shown ↔ shown = text := by
  constructor
  · intro second
    exact second.unique first
  · rintro rfl
    exact first

theorem process_text (room : Nat) (disk : Disk) {asJson asTokens : Bool} {maxDepth : Int}
    (made : (work room (textOptions asJson asTokens maxDepth) e).text = .ok text) :
    (process room disk (textOptions asJson asTokens maxDepth) e).stdout = text ++ "\n" ∧
      (process room disk (textOptions asJson asTokens maxDepth) e).status =
        (work room (textOptions asJson asTokens maxDepth) e).status := by
  rw [process_of_made rfl made rfl]
  exact ⟨String.append_empty, rfl⟩

theorem Prints.of_clean {parsed : Parsed} (read : readProgram e maxDepth = .ok parsed)
    (clean : parsed.diagnostics = [])
    (made : (rendition room (textOptions asJson false maxDepth) parsed.program).2 = .ok text) :
    Prints disk room maxDepth asJson false e (text ++ "\n") := by
  have whole : work room (textOptions asJson false maxDepth) e = _ := work_of_read rfl read
  have result : (work room (textOptions asJson false maxDepth) e).text = .ok text := by
    rw [whole]
    exact made
  obtain ⟨shown, status⟩ := process_text room disk result
  rw [← shown]
  apply Prints.program rfl
  rw [status, whole, Work.status, if_pos clean]

theorem Prints.of_fault {parsed : Parsed} {fault : Json.Fault}
    (read : readProgram e maxDepth = .ok parsed) (clean : parsed.diagnostics = [])
    (unmade : parsed.program.toJsonWithin room = .error fault) :
    Prints disk room maxDepth true false e ("[error] >>> " ++ fault.message ++ "\n") := by
  have failing : (work room (textOptions true false maxDepth) e).text = .error (.json fault) := by
    rw [show work room (textOptions true false maxDepth) e = _ from work_of_read rfl read]
    show (parsed.program.toJsonWithin room).mapError Fault.json = _
    rw [unmade]
    rfl
  have failed :
      process room disk (textOptions true false maxDepth) e = .failed "" "" (.json fault) :=
    process_of_unmade rfl failing
  rw [readProgram_ok read] at clean unmade
  exact .fault rfl clean rfl unmade failed

theorem prints_present {parsed : Parsed} (read : readProgram e maxDepth = .ok parsed) :
    Prints disk room maxDepth asJson false e
      ((between room maxDepth asJson false).present parsed) := by
  unfold present
  by_cases clean : parsed.diagnostics = []
  · rw [if_neg (not_not.2 clean)]
    cases asJson with
    | false => exact .of_clean read clean rfl
    | true =>
      rw [show (between room maxDepth true false).asJson = true from rfl, if_pos rfl,
        show (between room maxDepth true false).room = room from rfl]
      cases made : parsed.program.toJsonWithin room with
      | ok json =>
        apply Prints.of_clean read clean
        show (parsed.program.toJsonWithin room).mapError Fault.json = _
        rw [made]
        rfl
      | error fault => exact .of_fault read clean made
  · rw [if_pos clean]
    rw [readProgram_ok read] at clean ⊢
    exact .diagnostics rfl clean

theorem enter_source (asJson asTokens : Bool) (nonempty : e ≠ "")
    (noComment : e.toList.head? ≠ some '#') (noJson : e ≠ ":json") (noTokens : e ≠ ":tokens") :
    (between room maxDepth asJson asTokens).enter e =
      (if asTokens then .say (listing e ++ "\n")
        else (between room maxDepth asJson asTokens).evaluate e,
        between room maxDepth asJson asTokens) := by
  unfold enter
  rw [if_neg (by simp [nonempty, noComment]), if_neg noJson, if_neg noTokens]
  cases asTokens <;> rfl

theorem answer_source (disk : Disk) (asJson asTokens : Bool) (nonempty : e ≠ "")
    (noComment : e.toList.head? ≠ some '#') (noJson : e ≠ ":json") (noTokens : e ≠ ":tokens") :
    (∃ response, (between room maxDepth asJson asTokens).answer e =
          (response, some (between room maxDepth asJson asTokens)) ∧
        Prints disk room maxDepth asJson asTokens e response.text) ∨
      (asTokens = false ∧ ∃ interruption, readProgram e maxDepth = .error interruption ∧
        (between room maxDepth asJson asTokens).answer e =
          (⟨"", interruption.log, some interruption.fault⟩, none)) := by
  rw [answer, enter_source asJson asTokens nonempty noComment noJson noTokens]
  cases asTokens with
  | true =>
    left
    refine ⟨.say (listing e ++ "\n"), rfl, ?_⟩
    have made : (work room (textOptions false true defaultMaxDepth) e).text = .ok (listing e) := rfl
    have listed := (process_text room disk made).1
    show Prints disk room maxDepth asJson true e (listing e ++ "\n")
    rw [← listed]
    exact .tokens rfl
  | false =>
    cases read : readProgram e maxDepth with
    | ok parsed =>
      left
      refine ⟨⟨(between room maxDepth asJson false).present parsed, parsed.log, none⟩, ?_, ?_⟩
      · simp [evaluate, between, read]
      · exact prints_present read
    | error interruption =>
      right
      refine ⟨rfl, interruption, rfl, ?_⟩
      simp [evaluate, between, read]

theorem receive_of_entered {left : List String} {line : String} (asJson asTokens : Bool)
    (entered : entries left [line] = [e]) :
    ((between room maxDepth asJson asTokens).gathering left).receive line =
      (between room maxDepth asJson asTokens).answer e := by
  rw [entries] at entered
  rcases receive_cases left line with
    ⟨empty, leaving, _⟩ | ⟨stays, ⟨unfinished, _⟩ | ⟨complete, answered⟩⟩
  · rw [if_pos ⟨empty, leaving⟩] at entered
    cases entered
  · rw [if_neg stays, if_pos unfinished] at entered
    cases entered
  · rw [if_neg stays, if_neg complete] at entered
    rw [answered, (List.cons.inj entered).1]

end

/-- A session answers each entry of source text by itself: what it prints is determined by the entry and
the mode, and is what a run of the command on that text shows, or the diagnostics of the parse, or
what is wrong with the result, whereupon the session goes on in the same mode. Only a literal that
cannot be worked out breaks the session off, without a word. -/
theorem session_answers_like_command_runs (disk : Disk) (room : Nat) (maxDepth : Int)
    (before : List String) (line : String) (rest : List (Option String)) (e : String)
    (alive : ((begin room maxDepth).follow before).2.isSome = true)
    (entered : entries [] (before ++ [line]) = entries [] before ++ [e]) (nonempty : e ≠ "")
    (noComment : e.toList.head? ≠ some '#') (noJson : e ≠ ":json") (noTokens : e ≠ ":tokens") :
    (∃ text,
        (∀ shown, Prints disk room maxDepth (toggled ":json" (entries [] before))
          (toggled ":tokens" (entries [] before)) e shown ↔ shown = text) ∧
        ((runWithin room maxDepth (before.map some ++ some line :: rest))[before.length + 1]?).map
          Response.text = some (text ++ ">> ") ∧
        ((begin room maxDepth).follow (before ++ [line])).2 =
          some (between room maxDepth (toggled ":json" (entries [] before))
            (toggled ":tokens" (entries [] before)))) ∨
      (toggled ":tokens" (entries [] before) = false ∧
        ∃ interruption, readProgram e maxDepth = .error interruption ∧
          (runWithin room maxDepth (before.map some ++ some line :: rest)).drop (before.length + 1) =
            [⟨"", interruption.log, some interruption.fault⟩] ∧
          ((begin room maxDepth).follow (before ++ [line])).2 = none) := by
  obtain ⟨last, still⟩ := Option.isSome_iff_exists.1 alive
  have followed : ((between room maxDepth false false).gathering []).follow before =
      (((begin room maxDepth).follow before).1, some last) := Prod.ext rfl still
  obtain ⟨left, mode, divided⟩ := follow_alive before [] false false followed
  rw [Bool.false_xor, Bool.false_xor] at mode
  -- From here on only the mode counts that the lines before have left, not how it came about.
  generalize toggled ":json" (entries [] before) = asJson at mode ⊢
  generalize toggled ":tokens" (entries [] before) = asTokens at mode ⊢
  have completed : last.receive line = (between room maxDepth asJson asTokens).answer e := by
    rw [divided] at entered
    rw [mode, receive_of_entered asJson asTokens (List.append_cancel_left entered)]
  have next := follow_append followed [line]
  rw [follow_single, completed] at next
  obtain ⟨front, latest, length, behind⟩ :=
    respond_follow before (begin room maxDepth) (.say greeting) followed
  have shown : (runWithin room maxDepth (before.map some ++ some line :: rest)).drop
      (before.length + 1) = (last.respond latest (some line :: rest)).tail := by
    rw [runWithin, behind, ← length, ← List.drop_drop, List.drop_left, List.drop_one]
  rw [respond, List.tail_cons, completed] at shown
  rcases answer_source disk asJson asTokens nonempty noComment noJson noTokens with
    ⟨response, answered, prints⟩ | ⟨parsed, interruption, broken, answered⟩
  · rw [answered] at next shown
    left
    refine ⟨response.text, prints.iff_eq, ?_, next⟩
    have head := congrArg (fun responses => responses[0]?) shown
    simp only [List.getElem?_drop, Nat.add_zero, respond_head] at head
    rw [head]
    rfl
  · rw [answered] at next shown
    right
    exact ⟨parsed, interruption, broken, shown, next⟩

/-- Behind a change of mode and an entry with diagnostics, a function of two lines is shown in JSON. -/
theorem function_is_shown_in_json_behind_failure :
    ∃ text,
      (∀ shown, Prints ⟨fun _ => .error .notFound, fun _ => none⟩ Json.sessionRoom 100 true false
        "fn(a) \x7b\na \x7d" shown ↔ shown = text) ∧
      ((runWithin Json.sessionRoom 100
          [some ":json", some "let 1", some "fn(a) \x7b", some "a \x7d", none])[4]?).map
        Response.text = some (text ++ ">> ") ∧
      ((begin Json.sessionRoom 100).follow [":json", "let 1", "fn(a) \x7b", "a \x7d"]).2 =
        some (between Json.sessionRoom 100 true false) := by
  have json : toggled ":json" (entries [] [":json", "let 1", "fn(a) \x7b"]) = true := by
    decide +kernel
  have plain : toggled ":tokens" (entries [] [":json", "let 1", "fn(a) \x7b"]) = false := by
    decide +kernel
  have answers := session_answers_like_command_runs ⟨fun _ => .error .notFound, fun _ => none⟩
    Json.sessionRoom 100 [":json", "let 1", "fn(a) \x7b"] "a \x7d" [none]
    "fn(a) \x7b\na \x7d" (by decide +kernel) (by decide +kernel) (by decide +kernel)
    (by decide +kernel) (by decide +kernel) (by decide +kernel)
  rw [json, plain] at answers
  refine answers.resolve_right ?_
  rintro ⟨_, interruption, broken, _⟩
  have whole : (readProgram "fn(a) \x7b\na \x7d" 100).toOption.isSome = true := by decide +kernel
  rw [broken] at whole
  cases whole

end PrattFrontEnd.Session
