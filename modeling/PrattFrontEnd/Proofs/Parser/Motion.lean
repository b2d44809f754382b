import PrattFrontEnd.Proofs.Parser.Window

/-!
What moving the window and writing to the log does to a parser; rules do nothing else, whatever they
build. Main statements: `Reaches.on`, the window only moves forward; `horizon_advance_lt`, a measure
that every move decreases as long as there is a token to come; and `Ready.of_reaches`, there are
rounds enough for every loop wherever a parser comes.
-/
namespace PrattFrontEnd

namespace Parser

/-- What becomes of a parser by moving the window and writing to the log. -/
inductive Reaches (p : Parser) : Parser → Prop where
  | refl : Reaches p p
  | advance {q : Parser} (before : Reaches p q) : Reaches p q.advance
  | note {q : Parser} (event : Event) (before : Reaches p q) : Reaches p (q.note event)

namespace Reaches

theorem trans {p q r : Parser} (first : p.Reaches q) (second : q.Reaches r) : p.Reaches r := by
  induction second with
  | refl => exact first
  | advance _ ih => exact ih.advance
  | note event _ ih => exact ih.note event

theorem table {p q : Parser} (reaches : p.Reaches q) : q.table = p.table := by
  induction reaches with
  | refl => rfl
  | advance _ ih => exact ih
  | note _ _ ih => exact ih

theorem span {p q : Parser} (reaches : p.Reaches q) : q.span = p.span := by
  induction reaches with
  | refl => rfl
  | advance _ ih => exact ih
  | note _ _ ih => exact ih

theorem depth {p q : Parser} (reaches : p.Reaches q) : q.depth = p.depth := by
  induction reaches with
  | refl => rfl
  | advance _ ih => exact ih
  | note _ _ ih => exact ih

theorem maxDepth {p q : Parser} (reaches : p.Reaches q) : q.maxDepth = p.maxDepth := by
  induction reaches with
  | refl => rfl
  | advance _ ih => exact ih
  | note _ _ ih => exact ih

theorem levels {p q : Parser} (reaches : p.Reaches q) : q.levels = p.levels := by
  rw [Parser.levels, Parser.levels, reaches.depth, reaches.maxDepth]

theorem log {p q : Parser} (reaches : p.Reaches q) : ∃ events, q.log = events ++ p.log := by
  induction reaches with
  | refl => exact ⟨[], rfl⟩
  | advance _ ih => exact ih
  | note event _ ih =>
    obtain ⟨events, grown⟩ := ih
    exact ⟨event :: events, congrArg (event :: ·) grown⟩

theorem at_depth {p q : Parser} (reaches : p.Reaches q) (depth : Nat) :
    Reaches { p with depth } { q with depth } := by
  induction reaches with
  | refl => exact .refl
  | advance _ ih => exact ih.advance
  | note event _ ih => exact ih.note event

theorem on {p q : Parser} {ts : List Token} (reaches : p.Reaches q) (on : p.On ts) :
    ∃ us, us <:+ ts ∧ q.On us := by
  induction reaches with
  | refl => exact ⟨ts, List.suffix_refl ts, on⟩
  | advance _ ih =>
    obtain ⟨us, before, here⟩ := ih
    exact ⟨us.tail, (List.tail_suffix us).trans before, on_advance (ahead_of_on here)⟩
  | note _ _ ih => exact ih

theorem diagnostics {p q : Parser} (reaches : p.Reaches q) :
    ∃ more, q.diagnostics = p.diagnostics ++ more := by
  obtain ⟨events, grown⟩ := reaches.log
  refine ⟨events.reverse.filterMap fun event => event.failure?.map Failure.diagnostic, ?_⟩
  simp [Parser.diagnostics, grown]

theorem clean {p q : Parser} (reaches : p.Reaches q) (clean : q.diagnostics = []) :
    p.diagnostics = [] := by
  obtain ⟨more, grown⟩ := reaches.diagnostics
  rw [clean] at grown
  exact (List.append_eq_nil_iff.1 grown.symm).1

end Reaches

theorem diagnostics_ne_nil {p : Parser} {failure : Failure}
    (last : p.lastFailure = some failure) : p.diagnostics ≠ [] := by
  intro none
  obtain ⟨event, member, reported⟩ := List.exists_of_findSome?_eq_some last
  have listed : failure.diagnostic ∈ p.diagnostics := by
    simp only [diagnostics, List.mem_filterMap, List.mem_reverse]
    exact ⟨event, member, by rw [reported]; rfl⟩
  rw [none] at listed
  exact absurd listed List.not_mem_nil

/-- A bound on the moves up to the last end token. The window counts for two tokens while the source
has more of them. -/
def horizon (p : Parser) : Nat :=
  if 0 < p.source.remaining then p.source.remaining + 2
  else if p.peek.kind ≠ .eof then 2
  else if p.current.kind ≠ .eof then 1
  else 0

theorem source_shrinks {s : Source} (left : 0 < s.remaining) :
    s.next.2.remaining < s.remaining := by
  by_cases more : s.next.1.kind = .eof
  · cases s with
    | scanner s =>
      have spent : s.next.2.rest = [] := by
        simp only [Source.next, Scanner.next] at more ⊢
        split
        · rfl
        · rename_i c cs split
          simp only [split] at more
          exact absurd more (Lexeme.read_kind_ne_eof c cs)
      simp only [Source.next, Source.remaining, spent, List.length_nil] at left ⊢
      exact left
    | buffer b =>
      simp only [Source.next, Source.remaining, TokenBuffer.next] at left ⊢
      split
      · rename_i empty
        simp only [empty, List.length_nil, Nat.lt_irrefl] at left
      · rename_i pending
        simp only [pending, List.length_cons]
        omega
  · exact Source.next_remaining_lt more left

theorem horizon_le (p : Parser) : p.horizon ≤ p.source.remaining + 2 := by
  unfold horizon
  split
  · exact Nat.le_refl _
  · split
    · omega
    · split <;> omega

theorem horizon_of_left {p : Parser} (left : 0 < p.source.remaining) :
    p.horizon = p.source.remaining + 2 :=
  if_pos left

theorem horizon_of_exhausted {p : Parser} (exhausted : p.source.remaining = 0) :
    p.horizon = if p.peek.kind ≠ .eof then 2 else if p.current.kind ≠ .eof then 1 else 0 :=
  if_neg (by omega)

theorem horizon_pos_of_peek {p : Parser} (more : p.peek.kind ≠ .eof) : 0 < p.horizon := by
  by_cases left : 0 < p.source.remaining
  · rw [horizon_of_left left]
    omega
  · rw [horizon_of_exhausted (by omega), if_pos more]
    omega

theorem horizon_pos_of_current {p : Parser} (more : p.current.kind ≠ .eof) : 0 < p.horizon := by
  by_cases left : 0 < p.source.remaining
  · rw [horizon_of_left left]
    omega
  · rw [horizon_of_exhausted (by omega), if_pos more]
    split <;> omega

theorem ended_of_horizon {p : Parser} (none : p.horizon = 0) : p.current.kind = .eof := by
  by_cases ended : p.current.kind = .eof
  · exact ended
  · have left := horizon_pos_of_current ended
    omega

theorem horizon_advance_of_exhausted {p : Parser} (exhausted : p.source.remaining = 0) :
    p.advance.horizon = if p.peek.kind ≠ .eof then 1 else 0 := by
  have never := p.source.next_remaining_le
  have ended : p.source.next.1.kind = .eof := Source.next_kind_of_exhausted exhausted
  have still : p.advance.source.remaining = 0 := by
    rw [advance_source]
    omega
  rw [horizon_of_exhausted still, advance_peek, if_neg (not_not_intro ended), advance_current]

theorem horizon_advance_lt {p : Parser} (more : 0 < p.horizon) : p.advance.horizon < p.horizon := by
  by_cases left : 0 < p.source.remaining
  · have shrinks := source_shrinks left
    have bound := p.advance.horizon_le
    rw [horizon_of_left left]
    rw [advance_source] at bound
    omega
  · have exhausted : p.source.remaining = 0 := by omega
    rw [horizon_of_exhausted exhausted] at more ⊢
    rw [horizon_advance_of_exhausted exhausted]
    split <;> simp_all

theorem horizon_advance_le (p : Parser) : p.advance.horizon ≤ p.horizon := by
  by_cases left : 0 < p.source.remaining
  · exact Nat.le_of_lt (horizon_advance_lt (by rw [horizon_of_left left]; omega))
  · have exhausted : p.source.remaining = 0 := by omega
    rw [horizon_of_exhausted exhausted, horizon_advance_of_exhausted exhausted]
    split <;> simp

theorem Reaches.horizon_le {p q : Parser} (reaches : p.Reaches q) : q.horizon ≤ p.horizon := by
  induction reaches with
  | refl => exact Nat.le_refl _
  | advance _ ih => exact Nat.le_trans (horizon_advance_le _) ih
  | note _ _ ih => exact ih

/-- A parser with the rules of the language and rounds enough for every loop. -/
structure Ready (p : Parser) : Prop where
  table : p.table = .standard
  rounds : p.horizon ≤ p.span

theorem Ready.of_reaches {p q : Parser} (ready : p.Ready) (reaches : p.Reaches q) : q.Ready := by
  constructor
  · rw [reaches.table, ready.table]
  · rw [reaches.span]
    exact Nat.le_trans reaches.horizon_le ready.rounds

theorem Ready.at_depth {p : Parser} (ready : p.Ready) (depth : Nat) :
    Ready { p with depth } :=
  ⟨ready.table, ready.rounds⟩

def Comes (p q : Parser) : Prop := p.Reaches { q with depth := p.depth }

theorem Ready.of_comes {p q : Parser} (ready : p.Ready) (comes : p.Comes q) : q.Ready :=
  (ready.of_reaches comes).at_depth q.depth

theorem ready_onSource (source : Source) (maxDepth : Int) : (onSource source maxDepth).Ready := by
  have first := source.next_remaining_le
  have second := source.next.2.next_remaining_le
  have bound := (onSource source maxDepth).horizon_le
  have last : (onSource source maxDepth).source = source.next.2.next.2 := rfl
  have span : (onSource source maxDepth).span = source.remaining + 2 := rfl
  refine ⟨rfl, ?_⟩
  rw [last] at bound
  omega

theorem levels_onSource (source : Source) (maxDepth : Int) :
    (onSource source maxDepth).levels = maxDepth.toNat := by
  show (maxDepth - 0).toNat = maxDepth.toNat
  rw [Int.sub_zero]

theorem reaches_skipStatement (opened : Nat) (p : Parser) : p.Reaches (p.skipStatement opened) := by
  fun_induction skipStatement opened p with
  | case1 => exact .refl
  | case2 => exact .refl
  | case3 => exact .refl
  | case4 opened p _ _ _ ih => exact (Reaches.refl.advance).trans ih

theorem reaches_synchronize (p : Parser) : p.Reaches p.synchronize :=
  (Reaches.refl.note _).trans (reaches_skipStatement 0 _)

theorem skipStatement_log (opened : Nat) (p : Parser) : (p.skipStatement opened).log = p.log := by
  fun_induction skipStatement opened p with
  | case1 => rfl
  | case2 => rfl
  | case3 => rfl
  | case4 opened p _ _ _ ih => exact ih

theorem synchronize_log (p : Parser) : p.synchronize.log = .skipping p.current :: p.log :=
  skipStatement_log 0 _

end Parser

end PrattFrontEnd
