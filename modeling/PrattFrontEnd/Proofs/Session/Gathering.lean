import PrattFrontEnd.Proofs.Scanning.Concealed
import PrattFrontEnd.Session

/-!
How a session gathers lines into an entry. It counts the braces of each line as it comes, and so knows
those of the whole entry, which are its tokens and what comments, strings and illegal tokens conceal.
Main statement: `entry_ends_with_its_braces`.
-/
namespace PrattFrontEnd.Session

def joined (lines : List String) : String := "\n".intercalate lines

def between (room : Nat) (maxDepth : Int) (asJson asTokens : Bool) : Session :=
  ⟨room, maxDepth, asJson, asTokens, [], 0⟩

def gathering (s : Session) (lines : List String) : Session :=
  { s with lines, surplus := braceBalance (joined lines).toList }

def answer (s : Session) (entry : String) : Response × Option Session :=
  let (response, next) := s.enter entry
  (response, if response.fault.isSome then none else some next)

/-- The responses to some lines, and the session behind them if there still is one. -/
def follow (s : Session) : List String → List Response × Option Session
  | [] => ([], some s)
  | line :: rest =>
    match s.receive line with
    | (response, some next) =>
      let (responses, last) := next.follow rest
      (response :: responses, last)
    | (response, none) => ([response], none)

def silently (lines : Nat) (last : Response × Option Session) : List Response × Option Session :=
  (List.replicate lines (.say "") ++ [last.1], last.2)

theorem braceBalance_joined (lines : List String) :
    braceBalance (joined lines).toList = (lines.map braceSurplus).sum := by
  unfold joined
  induction lines with
  | nil => rfl
  | cons line lines ih =>
    cases lines with
    | nil => simp [braceSurplus, braceBalance]
    | cons next lines =>
      have feed : braceBalance "\n".toList = 0 := by decide
      rw [String.intercalate_cons_cons, String.toList_append, String.toList_append,
        braceBalance_append, braceBalance_append, ih, feed, List.map_cons, List.sum_cons, Int.add_zero]
      rfl

theorem braceBalance_joined_concat (lines : List String) (line : String) :
    braceBalance (joined (lines ++ [line])).toList =
      braceBalance (joined lines).toList + braceSurplus line := by
  rw [braceBalance_joined, braceBalance_joined, List.map_append, List.sum_append]
  simp

section

variable {room : Nat} {maxDepth : Int} {asJson asTokens : Bool} {lines : List String}
  {line : String}

theorem receive_leaving (leaving : leaves line = true) :
    (between room maxDepth asJson asTokens).receive line = (.say farewell, none) := by
  rw [receive, leaving]
  rfl

theorem stays_of_first (stays : lines = [] → leaves line = false) :
    (lines.isEmpty && leaves line) = false := by
  cases lines with
  | nil => rw [stays rfl, Bool.and_false]
  | cons _ _ => rfl

theorem receive_unfinished (stays : lines = [] → leaves line = false)
    (unfinished : 0 < braceBalance (joined (lines ++ [line])).toList) :
    ((between room maxDepth asJson asTokens).gathering lines).receive line =
      (.say "", some ((between room maxDepth asJson asTokens).gathering (lines ++ [line]))) := by
  have grown := braceBalance_joined_concat lines line
  rw [gathering, receive, if_neg (Bool.eq_false_iff.1 (stays_of_first stays))]
  simp only
  rw [if_pos (by omega), gathering, grown]

theorem receive_complete (stays : lines = [] → leaves line = false)
    (complete : braceBalance (joined (lines ++ [line])).toList ≤ 0) :
    ((between room maxDepth asJson asTokens).gathering lines).receive line =
      (between room maxDepth asJson asTokens).answer (Text.strip (joined (lines ++ [line]))) := by
  have grown := braceBalance_joined_concat lines line
  rw [gathering, receive, if_neg (Bool.eq_false_iff.1 (stays_of_first stays))]
  simp only
  rw [if_neg (by omega)]
  rfl

/-- Whether some lines leave an entry unfinished: more braces are opened than closed by their tokens
and by what comments, strings and illegal tokens conceal. -/
def Unfinished (lines : List String) : Prop :=
  PrattFrontEnd.surplus (tokenize (joined lines)) < braceBalance (concealed (joined lines))

instance (lines : List String) : Decidable (Unfinished lines) := Int.decLt _ _

theorem unfinished_iff : Unfinished lines ↔ 0 < braceBalance (joined lines).toList := by
  rw [Unfinished, braceBalance_eq]
  omega

theorem follow_of_next {s next : Session} {response : Response}
    (received : s.receive line = (response, some next)) (more : List String) :
    s.follow (line :: more) = (response :: (next.follow more).1, (next.follow more).2) := by
  rw [follow, received]

theorem follow_single (s : Session) (line : String) :
    s.follow [line] = ([(s.receive line).1], (s.receive line).2) := by
  rw [follow]
  rcases s.receive line with ⟨response, _ | next⟩ <;> rfl

theorem follow_gathering (more : List String) (seen : List String)
    (stays : seen = [] → ∀ line ∈ more.head?, leaves line = false) :
    (∃ n < more.length, (∀ k < n, Unfinished (seen ++ more.take (k + 1))) ∧
        ¬ Unfinished (seen ++ more.take (n + 1)) ∧
        ((between room maxDepth asJson asTokens).gathering seen).follow (more.take (n + 1)) =
          silently n ((between room maxDepth asJson asTokens).answer
            (Text.strip (joined (seen ++ more.take (n + 1)))))) ∨
      ((∀ k < more.length, Unfinished (seen ++ more.take (k + 1))) ∧
        ((between room maxDepth asJson asTokens).gathering seen).follow more =
          (List.replicate more.length (.say ""),
            some ((between room maxDepth asJson asTokens).gathering (seen ++ more)))) := by
  -- A line that leaves braces open moves from the lines to come to those that have been seen.
  induction more generalizing seen with
  | nil =>
    right
    refine ⟨fun k inside => absurd inside (Nat.not_lt_zero k), ?_⟩
    rw [List.append_nil]
    rfl
  | cons line more ih =>
    have first : seen = [] → leaves line = false := fun empty => stays empty line rfl
    by_cases unfinished : Unfinished (seen ++ [line])
    · have step : ((between room maxDepth asJson asTokens).gathering seen).receive line =
          (.say "", some ((between room maxDepth asJson asTokens).gathering (seen ++ [line]))) :=
        receive_unfinished first (unfinished_iff.1 unfinished)
      have behind (k : Nat) : seen ++ (line :: more).take (k + 1) = seen ++ [line] ++ more.take k := by
        simp
      have ongoing (n : Nat) (later : ∀ k < n, Unfinished (seen ++ [line] ++ more.take (k + 1))) :
          ∀ k < n + 1, Unfinished (seen ++ (line :: more).take (k + 1)) := by
        intro k early
        rw [behind]
        cases k with
        | zero => simpa using unfinished
        | succ k => exact later k (Nat.lt_of_succ_lt_succ early)
      have started : seen ++ [line] = [] → ∀ l ∈ more.head?, leaves l = false :=
        fun empty => absurd empty (by simp)
      rcases ih (seen ++ [line]) started with ⟨n, inside, later, done, last⟩ | ⟨later, last⟩
      · left
        refine ⟨n + 1, Nat.succ_lt_succ inside, ongoing n later, ?_, ?_⟩
        · rw [behind]
          exact done
        · rw [behind, List.take_succ_cons, follow_of_next step, last]
          rfl
      · right
        refine ⟨ongoing more.length later, ?_⟩
        rw [follow_of_next step, last, List.append_cons seen line more]
        rfl
    · left
      refine ⟨0, Nat.succ_pos _, fun k early => absurd early (Nat.not_lt_zero k), ?_, ?_⟩
      · simpa using unfinished
      · have complete : ((between room maxDepth asJson asTokens).gathering seen).receive line =
            (between room maxDepth asJson asTokens).answer (Text.strip (joined (seen ++ [line]))) :=
          receive_complete first (Int.not_lt.1 (unfinished_iff.not.1 unfinished))
        rw [List.take_succ_cons, List.take_zero, follow_single, complete]
        rfl

/-- A session reads an entry up to exactly the first line at which the braces opened and closed so far
even out, by the tokens of the lines and by what their comments, strings and illegal tokens conceal,
and answers it then; before that it stays silent. -/
theorem entry_ends_with_its_braces (room : Nat) (maxDepth : Int) (asJson asTokens : Bool)
    (lines : List String) (stays : ∀ line ∈ lines.head?, leaves line = false) :
    (∃ n < lines.length, (∀ k < n, Unfinished (lines.take (k + 1))) ∧
        ¬ Unfinished (lines.take (n + 1)) ∧
        (between room maxDepth asJson asTokens).follow (lines.take (n + 1)) =
          silently n ((between room maxDepth asJson asTokens).answer
            (Text.strip (joined (lines.take (n + 1)))))) ∨
      ((∀ k < lines.length, Unfinished (lines.take (k + 1))) ∧
        (between room maxDepth asJson asTokens).follow lines =
          (List.replicate lines.length (.say ""),
            some ((between room maxDepth asJson asTokens).gathering lines))) :=
  follow_gathering lines [] fun _ => stays

end

/-- A comment with an opening brace and a string with a closing one even out behind two lines. -/
theorem concealed_braces_even_out :
    ∃ n < 3, (∀ k < n, Unfinished (["# \x7b", "\"\x7d\"", "a"].take (k + 1))) ∧
      ¬ Unfinished (["# \x7b", "\"\x7d\"", "a"].take (n + 1)) ∧
      (between Json.sessionRoom 100 false false).follow (["# \x7b", "\"\x7d\"", "a"].take (n + 1)) =
        silently n ((between Json.sessionRoom 100 false false).answer
          (Text.strip (joined (["# \x7b", "\"\x7d\"", "a"].take (n + 1))))) := by
  have done := entry_ends_with_its_braces Json.sessionRoom 100 false false ["# \x7b", "\"\x7d\"", "a"]
    (by decide +kernel)
  refine done.resolve_right ?_
  rintro ⟨unfinished, _⟩
  exact absurd (unfinished 1 (by decide)) (by decide +kernel)

/-- A brace in a string is no token, and yet it keeps the entry open. -/
theorem brace_in_string_keeps_entry_open :
    leaves "\"\x7b\"" = false ∧ PrattFrontEnd.surplus (tokenize "\"\x7b\"") = 0 ∧
      (begin Json.sessionRoom 100).receive "\"\x7b\"" =
        (.say "", some ⟨Json.sessionRoom, 100, false, false, ["\"\x7b\""], 1⟩) := by
  have stays : leaves "\"\x7b\"" = false := by decide +kernel
  have unfinished : 0 < braceBalance (joined ["\"\x7b\""]).toList := by decide +kernel
  have gathered : ((between Json.sessionRoom 100 false false).gathering []).receive "\"\x7b\"" =
      (.say "", some ((between Json.sessionRoom 100 false false).gathering ["\"\x7b\""])) :=
    receive_unfinished (fun _ => stays) unfinished
  exact ⟨stays, by decide +kernel, gathered⟩

end PrattFrontEnd.Session
