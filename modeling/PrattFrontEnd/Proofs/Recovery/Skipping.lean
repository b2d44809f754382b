import PrattFrontEnd.Proofs.Recovery.Semicolons

/-!
Where skipping stops. The rest of a failed statement is skipped up to the first boundary among the
tokens before the end of input. A closing brace that closes nothing of what is skipped is only met as
the very first token: in front of any other one there is a boundary. So the braces that are counted are
those that are open, and what is skipped closes no block around it. Main statement:
`skipping_stops_at_first_boundary`.
-/
namespace PrattFrontEnd

open PrattFrontEnd.Parser

def openBehind (opened : Nat) (ts : List Token) : Nat :=
  ts.foldl (fun n t => openBraces n t.kind) opened

/-- Where skipping may stop: at the last token, and, with no brace open behind it, at a semicolon and in
front of a closing brace. -/
def Boundary (opened : Nat) (ts : List Token) (i : Nat) : Prop :=
  i + 1 = ts.length ∨
    openBehind opened (ts.take (i + 1)) = 0 ∧
      ((∃ t ∈ ts[i]?, t.kind = .semicolon) ∨ ∃ u ∈ ts[i + 1]?, u.kind = .rightBrace)

variable {p : Parser} {t : Token} {ts : List Token} {after : Stream' Token} {opened i : Nat}

theorem boundary_succ :
    Boundary opened (t :: ts) (i + 1) ↔ Boundary (openBraces opened t.kind) ts i := by
  simp [Boundary, openBehind]

theorem boundary_zero (noEnd : ∀ u ∈ t :: ts, u.kind ≠ .eof) (ended : after.head.kind = .eof) :
    Boundary opened (t :: ts) 0 ↔
      Rested (openBraces opened t.kind) ((t :: ts) ++ₛ after) := by
  have first : ((t :: ts) ++ₛ after).head = t := rfl
  have present : t.kind ≠ .eof := noEnd t List.mem_cons_self
  cases ts with
  | nil =>
    have next : ([t] ++ₛ after).tail.head.kind = .eof := ended
    rw [Boundary, Rested, first]
    exact ⟨fun _ => Or.inr (Or.inl next), fun _ => Or.inl rfl⟩
  | cons u us =>
    have next : ((t :: u :: us) ++ₛ after).tail.head = u := rfl
    have further : u.kind ≠ .eof := noEnd u (List.mem_cons_of_mem t List.mem_cons_self)
    simp [Boundary, Rested, openBehind, first, next, present, further]

theorem skipStatement_stops (opened : Nat) (noEnd : ∀ u ∈ t :: ts, u.kind ≠ .eof)
    (ended : after.head.kind = .eof) (coming : p.upcoming = (t :: ts) ++ₛ after) :
    ∃ i < (t :: ts).length, p.skipStatement opened = Parser.advance^[i] p ∧
      Boundary opened (t :: ts) i ∧ ∀ j < i, ¬ Boundary opened (t :: ts) j := by
  induction ts generalizing p t opened with
  | nil =>
    have current : p.current = t := congrArg Stream'.head coming
    have last : Boundary opened [t] 0 := Or.inl rfl
    have rested := (boundary_zero noEnd ended).1 last
    rw [← coming, ← current] at rested
    exact ⟨0, Nat.one_pos, skipStatement_rested rested, last, fun j early => by omega⟩
  | cons u us ih =>
    have current : p.current = t := congrArg Stream'.head coming
    by_cases here : Boundary opened (t :: u :: us) 0
    · have rested := (boundary_zero noEnd ended).1 here
      rw [← coming, ← current] at rested
      exact ⟨0, Nat.succ_pos _, skipStatement_rested rested, here, fun j early => by omega⟩
    · have goes := mt (boundary_zero noEnd ended).2 here
      rw [← coming, ← current] at goes
      have behind : p.advance.upcoming = (u :: us) ++ₛ after := by
        rw [upcoming_advance, coming]
        rfl
      obtain ⟨i, inside, same, stops, least⟩ :=
        ih (openBraces opened t.kind) (List.forall_mem_cons.1 noEnd).2 behind
      refine ⟨i + 1, by simpa using inside, ?_, boundary_succ.2 stops, ?_⟩
      · rw [skipStatement_goes goes, current, same, Function.iterate_succ_apply]
      · intro j early
        cases j with
        | zero => exact here
        | succ j =>
          rw [boundary_succ]
          exact least j (Nat.lt_of_succ_lt_succ early)

theorem openBehind_eq (fresh : ∀ u ∈ ts.head?, u.kind = .rightBrace → opened ≠ 0)
    (goes : ∀ j < i, ¬ Boundary opened ts j) (inside : i < ts.length) {n : Nat} (early : n ≤ i + 1) :
    (openBehind opened (ts.take n) : Int) = opened - surplus (ts.take n) := by
  induction ts generalizing opened i n with
  | nil => exact absurd inside (Nat.not_lt_zero i)
  | cons t us ih =>
    have first := openBraces_closing opened (fresh t rfl)
    cases n with
    | zero => simp [openBehind]
    | succ m =>
      show (openBehind (openBraces opened t.kind) (us.take m) : Int) =
        opened - (t.kind.closing + surplus (us.take m))
      cases m with
      | zero => simp [openBehind, first]
      | succ m =>
        obtain ⟨i, rfl⟩ : ∃ k, i = k + 1 := ⟨i - 1, by omega⟩
        have freshToo : ∀ u ∈ us.head?, u.kind = .rightBrace → openBraces opened t.kind ≠ 0 := by
          intro u front brace closed
          apply goes 0 (Nat.succ_pos i)
          refine Or.inr ⟨by simpa [openBehind] using closed, Or.inr ⟨u, ?_, brace⟩⟩
          simpa [List.head?_eq_getElem?] using front
        have goesToo : ∀ j < i, ¬ Boundary (openBraces opened t.kind) us j := by
          intro j before
          rw [← boundary_succ]
          exact goes (j + 1) (Nat.succ_lt_succ before)
        have behind := ih freshToo goesToo (Nat.lt_of_succ_lt_succ inside)
          (Nat.le_of_succ_le_succ early)
        omega

theorem exists_stretch (p : Parser) (more : p.current.kind ≠ .eof) :
    ∃ ts after, p.upcoming = (p.current :: ts) ++ₛ after ∧
      (∀ t ∈ p.current :: ts, t.kind ≠ .eof) ∧ after.head.kind = .eof := by
  induction left : p.horizon using Nat.strongRecOn generalizing p with
  | ind _ ih =>
    subst left
    by_cases last : p.peek.kind = .eof
    · refine ⟨[], p.upcoming.tail, rfl, ?_, last⟩
      simpa using more
    · have shorter := horizon_advance_lt (horizon_pos_of_current more)
      obtain ⟨ts, after, coming, noEnd, ended⟩ := ih _ shorter p.advance last rfl
      refine ⟨p.peek :: ts, after, ?_, List.forall_mem_cons.2 ⟨more, noEnd⟩, ended⟩
      rw [upcoming_advance] at coming
      rw [← Stream'.eta p.upcoming, coming]
      rfl

theorem advance_iterate (moves : Nat) (p : Parser) :
    Parser.advance^[moves] p =
      { p with
        source := (fun s : Source => s.next.2)^[moves] p.source
        current := (p.upcoming.drop moves).head
        peek := (p.upcoming.drop moves).tail.head } := by
  induction moves generalizing p with
  | zero => rfl
  | succ moves ih =>
    rw [Function.iterate_succ_apply, ih, Function.iterate_succ_apply, Stream'.drop_succ,
      ← upcoming_advance]
    rfl

/-- What skipping comes to, from a parser in front of these tokens and of the end of input. -/
structure Parser.SkipsTo (p : Parser) (ts : List Token) (i : Nat) : Prop where
  coming : ∃ after, p.upcoming = ts ++ₛ after ∧ after.head.kind = .eof
  noEnd : ∀ t ∈ ts, t.kind ≠ .eof
  lands : ts[i]? = some p.synchronize.current
  stops : Boundary 0 ts i
  least : ∀ j < i, ¬ Boundary 0 ts j
  /-- No block around what is skipped is closed. -/
  inside : p.current.kind ≠ .rightBrace → ∀ us, us <+: ts.take (i + 1) → surplus us ≤ 0
  balanced : p.current.kind ≠ .rightBrace → i + 1 < ts.length → Balanced (ts.take (i + 1))
  /-- The window has moved, the source has been read on, and the log has one more line. -/
  frame : p.synchronize =
    { p with
      source := (fun s : Source => s.next.2)^[i] p.source
      current := (p.upcoming.drop i).head
      peek := (p.upcoming.drop i).tail.head
      log := .skipping p.current :: p.log }
  diagnostics : p.synchronize.diagnostics = p.diagnostics
  lastFailure : p.synchronize.lastFailure = p.lastFailure

/-- Skipping ends, whatever the parser, on the first boundary among the tokens before the end of input.
Unless it starts at a closing brace it never passes the closing brace of a block around it, and if
it stops before the end of input it has skipped as many closing braces as opening ones. It changes
nothing but the window and how far the source has been read. -/
theorem skipping_stops_at_first_boundary (p : Parser) (more : p.current.kind ≠ .eof) :
    ∃ ts i, p.SkipsTo ts i := by
  obtain ⟨ts, after, coming, noEnd, ended⟩ := exists_stretch p more
  have noted : (p.note (.skipping p.current)).upcoming = (p.current :: ts) ++ₛ after := coming
  obtain ⟨i, inside, same, stops, least⟩ := skipStatement_stops 0 noEnd ended noted
  have frame : p.synchronize =
      Parser.advance^[i] (p.note (.skipping p.current)) := same
  rw [advance_iterate] at frame
  have counted : p.current.kind ≠ .rightBrace → ∀ n ≤ i + 1,
      (openBehind 0 ((p.current :: ts).take n) : Int) = -surplus ((p.current :: ts).take n) := by
    intro plain n early
    have fresh : ∀ u ∈ (p.current :: ts).head?, u.kind = .rightBrace → 0 ≠ 0 := by
      intro u front brace
      cases front
      exact absurd brace plain
    have count := openBehind_eq fresh least inside early
    omega
  have never : p.current.kind ≠ .rightBrace →
      ∀ us, us <+: (p.current :: ts).take (i + 1) → surplus us ≤ 0 := by
    intro plain us front
    have early : us.length ≤ i + 1 := front.length_le.trans (List.length_take_le _ _)
    have taken := List.prefix_iff_eq_take.1 (front.trans (List.take_prefix _ _))
    have count := counted plain us.length early
    rw [← taken] at count
    omega
  refine ⟨p.current :: ts, i, ⟨after, coming, ended⟩, noEnd, ?_, stops, least, never, ?_, frame, ?_, ?_⟩
  · have here : p.synchronize.current = p.upcoming.get i := by
      rw [frame]
      exact congrArg p.upcoming.get (Nat.zero_add i)
    rw [here, coming, Stream'.get_append_left _ _ _ inside, List.getElem?_eq_getElem inside]
  · intro plain further
    refine ⟨never plain, ?_⟩
    rcases stops with last | ⟨closed, _⟩
    · omega
    · have count := counted plain (i + 1) (Nat.le_refl _)
      omega
  · rw [frame]
    simp [Parser.diagnostics, Parser.note, Event.failure?]
  · rw [frame]
    rfl

/-- The braces of a block are skipped, and the closing brace behind it is not. -/
theorem skipping_passes_a_block :
    let p := Parser.ofString "if \x7b a; \x7b \x7d \x7d b \x7d; c" 100
    p.current.kind ≠ .eof ∧ p.synchronize.current.text = "b" ∧ ∃ ts i, p.SkipsTo ts i := by
  refine ⟨by decide +kernel, by decide +kernel, ?_⟩
  exact skipping_stops_at_first_boundary _ (by decide +kernel)

end PrattFrontEnd
