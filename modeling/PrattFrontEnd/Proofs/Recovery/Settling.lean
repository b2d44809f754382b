import PrattFrontEnd.Proofs.Parser.Rounds
import PrattFrontEnd.Proofs.Recovery.Braces

/-!
Where rules leave a parser among the braces. A rule uses up as many closing braces as opening ones,
even when it fails, with one exception: an expression that is wanted at a closing brace. That brace
is then lost to the block it belongs to, and the log shows it. Main statements: `lands_within`,
for operands of any nesting, and `settles_sequence`, for sequences with recovery.
-/
namespace PrattFrontEnd

open Rule PrattFrontEnd.Parser

def Event.strands : Event → Bool
  | .reported ⟨.noOpening _, token⟩ | .reported ⟨.tooDeep _, token⟩ => token.kind = .rightBrace
  | _ => false

namespace Parser

def strandings (p : Parser) : Nat := p.log.countP Event.strands

@[simp] theorem strandings_advance (p : Parser) : p.advance.strandings = p.strandings := rfl

theorem strandings_note (p : Parser) (event : Event) (harmless : event.strands = false) :
    (p.note event).strandings = p.strandings := by
  simp [strandings, note, harmless]

theorem strandings_note_of_strands (p : Parser) (event : Event) (strands : event.strands = true) :
    p.strandings < (p.note event).strandings := by
  simp [strandings, note, strands]

/-- What is left to be read. An opening brace under the window has not been dealt with yet, any
other token has. -/
def Faces (p : Parser) (ts : List Token) : Prop :=
  if p.current.kind = .leftBrace then p.On ts else p.Ahead ts

end Parser

/-- How a parser fares among the braces on the way from one list to another, by what its log shows
before and after. -/
inductive Fares (ts us : List Token) (before after : Nat) : Prop where
  | kept (same : after = before) (level : surplus us = surplus ts)
      (above : Above (surplus ts) ts us) : Fares ts us before after
  | sunk (more : before < after) (lower : us = [] ∨ surplus us < surplus ts) :
      Fares ts us before after

theorem Fares.refl (ts : List Token) (before : Nat) : Fares ts ts before before :=
  .kept rfl rfl (.here (Int.le_refl _))

theorem Fares.trans {ts us vs : List Token} {a b c : Nat} (first : Fares ts us a b)
    (second : Fares us vs b c) (left : vs <:+ us) : Fares ts vs a c := by
  cases first with
  | kept same level above =>
    cases second with
    | kept sameToo levelToo aboveToo =>
      exact .kept (by omega) (by omega) (above.trans (level ▸ aboveToo))
    | sunk more lower => exact .sunk (by omega) (lower.imp id fun lower => by omega)
  | sunk more lower =>
    have still : vs = [] ∨ surplus vs < surplus ts := by
      rcases lower with rfl | lower
      · exact Or.inl (List.suffix_nil.1 left)
      · cases second with
        | kept _ level _ => exact Or.inr (by omega)
        | sunk _ lowerToo => exact lowerToo.imp id fun lowerToo => by omega
    cases second with
    | kept same _ _ => exact .sunk (by omega) still
    | sunk moreToo _ => exact .sunk (by omega) still

theorem Fares.across {t : Token} {ts us : List Token} {a b : Nat} (fares : Fares ts us a b)
    (opens : t.kind = .leftBrace) (nonneg : 0 ≤ surplus (t :: ts))
    (closes : ∀ u ∈ us.head?, u.kind = .rightBrace) : Fares (t :: ts) us.tail a b := by
  have outside : surplus ts = surplus (t :: ts) + 1 := by
    rw [surplus_cons, opens, show Kind.closing .leftBrace = -1 from rfl]
    omega
  cases us with
  | nil =>
    cases fares with
    | kept _ level _ =>
      rw [surplus_nil] at level
      omega
    | sunk more _ => exact .sunk more (Or.inl rfl)
  | cons u us =>
    have brace : surplus (u :: us) = surplus us + 1 := by
      rw [surplus_cons, closes u rfl, show Kind.closing .rightBrace = 1 from rfl]
      omega
    cases fares with
    | kept same level above =>
      have last : Above (surplus (t :: ts)) (u :: us) us := .drop (by omega) (.here (by omega))
      exact .kept same (by rw [List.tail_cons]; omega)
        (.drop (Int.le_refl _) ((above.mono (by omega)).trans last))
    | sunk more lower =>
      rcases lower with none | lower
      · cases none
      · exact .sunk more (Or.inr (by rw [List.tail_cons]; omega))

/-- What a rule may make of a parser in front of some tokens. A rule that succeeds has dealt with
the token under the window. -/
structure Parser.Settles (p : Parser) (ts : List Token) (outcome : Except Failure α × Parser) :
    Prop where
  moves : p.Reaches outcome.2
  settled : ∃ us, outcome.2.Faces us ∧ us <:+ ts ∧
    (∀ a, outcome.1 = .ok a → outcome.2.current.kind ≠ .leftBrace) ∧
    Fares ts us p.strandings outcome.2.strandings

/-- A rule that starts behind a token it has dealt with. -/
def Rule.Steps (rule : Rule α) : Prop :=
  ∀ (p : Parser) (ts : List Token), p.Ready → Closing ts → p.Ahead ts →
    p.current.kind ≠ .leftBrace → p.Settles ts (rule p)

/-- A rule that starts at a token that nothing has been done with. -/
def Rule.Lands (rule : Rule α) : Prop :=
  ∀ (p : Parser) (ts : List Token), p.Ready → Closing ts → p.On ts → p.Settles ts (rule p)

variable {p q : Parser} {ts us : List Token}

theorem faces_of_ahead (ahead : p.Ahead ts) (plain : p.current.kind ≠ .leftBrace) : p.Faces ts := by
  rw [Faces, if_neg plain]
  exact ahead

theorem ahead_of_faces (faces : p.Faces ts) (plain : p.current.kind ≠ .leftBrace) : p.Ahead ts := by
  rw [Faces, if_neg plain] at faces
  exact faces

theorem Parser.Settles.bind {first : Rule α} {next : α → Rule β} (ready : p.Ready)
    (closing : Closing ts) (settles : p.Settles ts (first p)) (after : ∀ a, (next a).Steps) :
    p.Settles ts ((first >>= next) p) := by
  rw [bind_apply]
  cases run : first p with
  | mk result q =>
    rw [run] at settles
    obtain ⟨moves, us, faces, suffix, plain, fares⟩ := settles
    cases result with
    | error failure =>
      refine ⟨moves, us, faces, suffix, ?_, fares⟩
      intro a built
      cases built
    | ok a =>
      have bare := plain a rfl
      obtain ⟨movesToo, vs, facesToo, suffixToo, plainToo, faresToo⟩ :=
        after a q us (ready.of_reaches moves) (closing.of_suffix suffix)
          (ahead_of_faces faces bare) bare
      exact ⟨moves.trans movesToo, vs, facesToo, suffixToo.trans suffix, plainToo,
        fares.trans faresToo suffixToo⟩

namespace Rule.Steps

theorem stay {a : α} (ahead : p.Ahead ts) (plain : p.current.kind ≠ .leftBrace) :
    p.Settles ts ((.ok a, p) : Except Failure α × Parser) :=
  ⟨.refl, ts, faces_of_ahead ahead plain, List.suffix_refl ts, fun _ _ => plain, .refl ts _⟩

theorem pure (a : α) : (Pure.pure a : Rule α).Steps := fun _ _ _ _ ahead plain => stay ahead plain

theorem bind {first : Rule α} {next : α → Rule β} (before : first.Steps)
    (after : ∀ a, (next a).Steps) : (first >>= next).Steps :=
  fun p ts ready closing ahead plain =>
    (before p ts ready closing ahead plain).bind ready closing after

theorem here : Rule.here.Steps := fun _ _ _ _ ahead plain => stay ahead plain

theorem strength : Rule.strength.Steps := fun _ _ _ _ ahead plain => stay ahead plain

theorem name : Rule.name.Steps := fun _ _ _ _ ahead plain => stay ahead plain

theorem move {a : α} (ahead : p.Ahead ts) (present : p.peek.kind ≠ .eof)
    (left : p.peek.kind ≠ .leftBrace) (right : p.peek.kind ≠ .rightBrace) :
    p.Settles ts ((.ok a, p.advance) : Except Failure α × Parser) := by
  obtain ⟨us, rfl, behind⟩ := ahead_split ahead present
  have level : surplus us = surplus (p.peek :: us) := by
    rw [surplus_cons, closing_of_other left right]
    omega
  exact ⟨.advance .refl, us, faces_of_ahead behind left, List.suffix_cons _ _, fun _ _ => left,
    .kept rfl level (.drop (Int.le_refl _) (.here (by omega)))⟩

theorem fail {diagnostic : Diagnostic} {token : Token}
    (harmless : (Event.reported ⟨diagnostic, token⟩).strands = false) :
    (Rule.fail diagnostic token : Rule α).Steps := by
  intro p ts _ _ ahead plain
  refine ⟨.note _ .refl, ts, faces_of_ahead (p := p) ahead plain, List.suffix_refl ts, ?_,
    .kept (strandings_note p _ harmless) rfl (.here (Int.le_refl _))⟩
  intro a built
  cases built

theorem expect {wanted : Kind} (present : wanted ≠ .eof) (left : wanted ≠ .leftBrace)
    (right : wanted ≠ .rightBrace) : (Rule.expect wanted).Steps := by
  intro p ts ready closing ahead plain
  unfold Rule.expect
  by_cases found : p.peek.kind = wanted
  · rw [if_pos found]
    exact move ahead (found ▸ present) (found ▸ left) (found ▸ right)
  · rw [if_neg found]
    exact fail rfl p ts ready closing ahead plain

theorem accept {kind : Kind} (present : kind ≠ .eof) (left : kind ≠ .leftBrace)
    (right : kind ≠ .rightBrace) : (Rule.accept kind).Steps := by
  intro p ts _ _ ahead plain
  unfold Rule.accept
  by_cases found : p.peek.kind = kind
  · rw [if_pos found]
    exact move ahead (found ▸ present) (found ▸ left) (found ▸ right)
  · rw [if_neg found]
    exact stay ahead plain

theorem advance {rule : Rule α} (lands : rule.Lands) :
    (Rule.advance >>= fun _ => rule).Steps := by
  intro p ts ready closing ahead _
  obtain ⟨moves, settled⟩ :=
    lands p.advance ts (ready.of_reaches (.advance .refl)) closing (on_advance ahead)
  exact ⟨(Reaches.advance .refl).trans moves, settled⟩

theorem ite {condition : Prop} [Decidable condition] {first second : Rule α}
    (one : first.Steps) (other : second.Steps) : (if condition then first else second).Steps := by
  split
  · exact one
  · exact other

end Rule.Steps

namespace Rule.Lands

theorem bind {first : Rule α} {next : α → Rule β} (before : first.Lands)
    (after : ∀ a, (next a).Steps) : (first >>= next).Lands :=
  fun p ts ready closing on => (before p ts ready closing on).bind ready closing after

theorem here {next : Token → Rule α} (after : ∀ t, (next t).Lands) :
    (Rule.here >>= next).Lands :=
  fun p ts ready closing on => after p.current p ts ready closing on

theorem of_steps {rule : Rule α} (steps : rule.Steps) (ready : p.Ready) (closing : Closing ts)
    (on : p.On ts) (present : p.current.kind ≠ .eof) (left : p.current.kind ≠ .leftBrace)
    (right : p.current.kind ≠ .rightBrace) : p.Settles ts (rule p) := by
  obtain ⟨us, rfl, ahead⟩ := on_split on present
  obtain ⟨moves, vs, faces, suffix, plain, fares⟩ :=
    steps p us ready (closing.of_suffix (List.suffix_cons _ _)) ahead left
  have level : surplus us = surplus (p.current :: us) := by
    rw [surplus_cons, closing_of_other left right]
    omega
  have first : Fares (p.current :: us) us p.strandings p.strandings :=
    .kept rfl level (.drop (Int.le_refl _) (.here (by omega)))
  exact ⟨moves, vs, faces, suffix.trans (List.suffix_cons _ _), plain, first.trans fares suffix⟩

theorem stuck {diagnostic : Diagnostic}
    (strands : ∀ token,
      (Event.reported ⟨diagnostic, token⟩).strands = decide (token.kind = .rightBrace))
    (on : p.On ts) :
    p.Settles ts (Rule.fail diagnostic p.current p : Except Failure α × Parser) := by
  have failed : ∀ a : α, (Rule.fail diagnostic p.current p : Except Failure α × Parser).1 = .ok a →
      p.current.kind ≠ .leftBrace := by
    intro a built
    cases built
  by_cases right : p.current.kind = .rightBrace
  · obtain ⟨us, rfl, ahead⟩ := on_split on (by rw [right]; decide)
    have more := strandings_note_of_strands p (.reported ⟨diagnostic, p.current⟩)
      (by rw [strands, right]; rfl)
    refine ⟨.note _ .refl, us, faces_of_ahead (p := p) ahead (by rw [right]; decide),
      List.suffix_cons _ _, failed, .sunk more (Or.inr ?_)⟩
    rw [surplus_cons, right, show Kind.closing .rightBrace = 1 from rfl]
    omega
  · have same := strandings_note p (.reported ⟨diagnostic, p.current⟩)
      (by rw [strands]; exact decide_eq_false right)
    by_cases left : p.current.kind = .leftBrace
    · have faces : p.Faces ts := by
        rw [Faces, if_pos left]
        exact on
      exact ⟨.note _ .refl, ts, faces, List.suffix_refl ts, failed,
        .kept same rfl (.here (Int.le_refl _))⟩
    · refine ⟨.note _ .refl, ts.tail, faces_of_ahead (p := p) (ahead_of_on on) left,
        List.tail_suffix ts, failed, ?_⟩
      cases ts with
      | nil => exact .kept same rfl (.here (Int.le_refl _))
      | cons t us =>
        rw [on.1] at left right
        have level : surplus us = surplus (t :: us) := by
          rw [surplus_cons, closing_of_other left right]
          omega
        exact .kept same level (.drop (Int.le_refl _) (.here (Int.le_of_eq level.symm)))

end Rule.Lands

theorem openBraces_step {level : Int} {opened : Nat} {t : Token}
    (inner : ¬ (opened = 0 ∧ t.kind = .rightBrace)) (inside : surplus (t :: ts) = level + opened) :
    surplus ts = level + openBraces opened t.kind := by
  rw [surplus_cons] at inside
  unfold openBraces
  by_cases left : t.kind = .leftBrace
  · rw [left, show Kind.closing .leftBrace = -1 from rfl] at inside
    rw [if_pos left]
    omega
  · rw [if_neg left]
    by_cases right : t.kind = .rightBrace
    · rw [right, show Kind.closing .rightBrace = 1 from rfl] at inside
      have some : opened ≠ 0 := fun none => inner ⟨none, right⟩
      rw [if_pos right]
      omega
    · rw [closing_of_other left right] at inside
      rw [if_neg right]
      omega

theorem skipStatement_settles {level : Int} (nonneg : 0 ≤ level) (opened : Nat)
    (ahead : p.Ahead us) (ended : p.current.kind = .eof → us = [])
    (inside : surplus us = level + openBraces opened p.current.kind) :
    ∃ vs, (p.skipStatement opened).Ahead vs ∧ surplus vs = level ∧ Above level us vs := by
  fun_induction skipStatement opened p generalizing us with
  | case1 opened p finished =>
    rw [ended finished, surplus_nil] at inside
    exact ⟨us, ahead, by rw [ended finished, surplus_nil]; omega,
      .here (by rw [ended finished, surplus_nil]; omega)⟩
  | case2 opened p _ last =>
    have none : us = [] := by
      cases us with
      | nil => rfl
      | cons t us =>
        rw [ahead.1] at last
        exact absurd last ahead.2.1
    rw [none, surplus_nil] at inside
    exact ⟨us, ahead, by rw [none, surplus_nil]; omega, .here (by rw [none, surplus_nil]; omega)⟩
  | case3 opened p _ _ boundary =>
    simp only [Bool.and_eq_true, decide_eq_true_eq] at boundary
    rw [boundary.1] at inside
    exact ⟨us, ahead, by omega, .here (by omega)⟩
  | case4 opened p _ more inner ih =>
    obtain ⟨vs, rfl, behind⟩ := ahead_split ahead more
    have open_ : ¬ (openBraces opened p.current.kind = 0 ∧ p.peek.kind = .rightBrace) := by
      rintro ⟨none, right⟩
      apply inner
      simp [none, right]
    have deeper := openBraces_step open_ inside
    obtain ⟨ws, last, level, above⟩ := ih behind (fun finished => absurd finished more) deeper
    exact ⟨ws, last, level, .drop (by omega) above⟩

theorem synchronize_settles (faces : p.Faces ts) (closing : Closing ts)
    (ended : p.current.kind = .eof → ts = []) :
    ∃ us, p.synchronize.Ahead us ∧ us <:+ ts ∧
      Fares ts us p.strandings p.synchronize.strandings := by
  have same : p.synchronize.strandings = p.strandings := by
    have silent := strandings_note p (.skipping p.current) rfl
    rw [← silent, synchronize, strandings, skipStatement_log]
    rfl
  by_cases left : p.current.kind = .leftBrace
  · rw [Faces, if_pos left] at faces
    obtain ⟨us, rfl, ahead⟩ := on_split faces (by rw [left]; decide)
    have level : surplus us = surplus (p.current :: us) + openBraces 0 p.current.kind := by
      rw [surplus_cons, left, show Kind.closing .leftBrace = -1 from rfl]
      simp only [openBraces, if_true]
      omega
    obtain ⟨vs, last, level, above⟩ := skipStatement_settles
      (p := p.note (.skipping p.current)) closing.surplus 0 ahead
      (fun finished => by rw [show p.current.kind = .eof from finished] at left; cases left) level
    exact ⟨vs, last, above.suffix.trans (List.suffix_cons _ _),
      .kept same level (.drop (Int.le_refl _) above)⟩
  · rw [Faces, if_neg left] at faces
    have level : surplus ts = surplus ts + openBraces 0 p.current.kind := by
      unfold openBraces
      rw [if_neg left]
      split <;> simp
    obtain ⟨vs, last, level, above⟩ := skipStatement_settles
      (p := p.note (.skipping p.current)) closing.surplus 0 faces ended level
    exact ⟨vs, last, above.suffix, .kept same level above⟩

section

variable {operand : Operand} (lands : ∀ bound, (operand bound).Lands)

include lands

namespace Statement

omit lands in
theorem closing_of_endsBlock {t : Token} (on : p.On (t :: us))
    (ends : endsBlock p.current.kind = true) : t.kind = .rightBrace := by
  have kinds : t.kind = .rightBrace ∨ t.kind = .eof := by
    rw [on.1] at ends
    simpa [endsBlock] using ends
  exact kinds.resolve_right on.2.1

theorem steps_binding : (binding operand).Steps :=
  Steps.here.bind fun _ => (Steps.expect (by decide) (by decide) (by decide)).bind fun _ =>
    Steps.name.bind fun _ => (Steps.expect (by decide) (by decide) (by decide)).bind fun _ =>
      Steps.advance ((lands _).bind fun _ =>
        (Steps.accept (by decide) (by decide) (by decide)).bind fun _ => Steps.pure _)

theorem steps_result : (result operand).Steps :=
  Steps.here.bind fun _ => Steps.advance ((lands _).bind fun _ =>
    (Steps.accept (by decide) (by decide) (by decide)).bind fun _ => Steps.pure _)

theorem lands_expression : (expression operand).Lands :=
  Lands.here fun _ => (lands _).bind fun _ =>
    (Steps.accept (by decide) (by decide) (by decide)).bind fun _ => Steps.pure _

theorem lands_any : (any operand).Lands := by
  intro p ts ready closing on
  unfold any
  split
  · rename_i kind
    exact Lands.of_steps (steps_binding lands) ready closing on (by rw [kind]; decide)
      (by rw [kind]; decide) (by rw [kind]; decide)
  · rename_i kind
    exact Lands.of_steps (steps_result lands) ready closing on (by rw [kind]; decide)
      (by rw [kind]; decide) (by rw [kind]; decide)
  · exact lands_expression lands p ts ready closing on

theorem settles_sequence {closes : Kind → Bool} (ends : closes .eof = true) (rounds : Nat)
    (enough : p.horizon ≤ rounds) (ready : p.Ready) (closing : Closing ts) (on : p.On ts) :
    p.Reaches (sequence operand closes rounds p).2 ∧
      ∃ us, (sequence operand closes rounds p).2.On us ∧ us <:+ ts ∧
      closes (sequence operand closes rounds p).2.current.kind = true ∧
      Fares ts us p.strandings (sequence operand closes rounds p).2.strandings := by
  induction rounds generalizing p ts with
  | zero =>
    have ended := ended_of_horizon (Nat.le_zero.1 enough)
    exact ⟨.refl, ts, on, List.suffix_refl ts, by rw [sequence, ended, ends], .refl ts _⟩
  | succ rounds ih =>
    by_cases goes : closes p.current.kind = true
    · rw [sequence_closed goes]
      exact ⟨.refl, ts, on, List.suffix_refl ts, goes, .refl ts _⟩
    · have more : p.current.kind ≠ .eof := by
        intro ended
        rw [ended] at goes
        exact goes ends
      have settles := lands_any lands p ts ready closing on
      cases built : any operand p with
      | mk result q =>
        rw [built] at settles
        obtain ⟨us, faces, suffix, plain, fares⟩ := settles.settled
        have moves : p.Reaches q := settles.moves
        cases result with
        | ok statement =>
          have shorter := horizon_lt_of_statement more moves
          have behind := on_advance (ahead_of_faces faces (plain statement rfl))
          obtain ⟨onward, vs, last, left, closed, faresToo⟩ := ih (p := q.advance) (by omega)
            (ready.of_reaches moves.advance) (closing.of_suffix suffix) behind
          rw [sequence_built goes built]
          exact ⟨moves.advance.trans onward, vs, last, left.trans suffix, closed,
            fares.trans faresToo left⟩
        | error failure =>
          have ended : q.current.kind = .eof → us = [] := by
            intro finished
            obtain ⟨vs, _, here⟩ := moves.on on
            have none : vs = [] := by
              cases vs with
              | nil => rfl
              | cons t vs =>
                rw [here.1] at finished
                exact absurd finished here.2.1
            rw [none] at here
            exact ahead_unique (ahead_of_faces faces (by rw [finished]; decide)) here.2
          have movesToo := moves.trans q.reaches_synchronize
          have shorter := horizon_lt_of_statement more movesToo
          obtain ⟨vs, ahead, left, skipped⟩ :=
            synchronize_settles faces (closing.of_suffix suffix) ended
          obtain ⟨onward, ws, last, leftToo, closed, faresToo⟩ :=
            ih (p := q.synchronize.advance) (by omega) (ready.of_reaches movesToo.advance)
              ((closing.of_suffix suffix).of_suffix left) (on_advance ahead)
          rw [sequence_dropped goes built]
          exact ⟨movesToo.advance.trans onward, ws, last, (leftToo.trans left).trans suffix, closed,
            (fares.trans skipped left).trans faresToo leftToo⟩

theorem settles_block (ready : p.Ready) (closing : Closing ts) (on : p.On ts)
    (braced : p.current.kind = .leftBrace) :
    p.Reaches (block operand p).2 ∧
      ∃ us, (block operand p).2.On us ∧ us <:+ ts.tail ∧
        endsBlock (block operand p).2.current.kind ∧
        Fares ts.tail us p.strandings (block operand p).2.strandings := by
  obtain ⟨tail, rfl, ahead⟩ := on_split on (by rw [braced]; decide)
  have readyInside := ready.of_reaches (.advance .refl)
  obtain ⟨moves, inside⟩ := settles_sequence lands (show endsBlock .eof = true from rfl) p.span
    readyInside.rounds readyInside (closing.of_suffix (List.suffix_cons _ _)) (on_advance ahead)
  exact ⟨(Reaches.advance .refl).trans moves, inside⟩

theorem steps_block : (expect .leftBrace >>= fun _ => always (block operand)).Steps := by
  intro p ts ready closing ahead plain
  by_cases braced : p.peek.kind = .leftBrace
  · have whole : (expect .leftBrace >>= fun _ => always (block operand)) p =
        (.ok (block operand p.advance).1, (block operand p.advance).2) := by
      rw [bind_of_ok (show expect .leftBrace p = (.ok (), p.advance) from if_pos braced)]
      rfl
    obtain ⟨moves, us, last, suffix, ends, fares⟩ := settles_block lands
      (ready.of_reaches (.advance .refl)) closing (on_advance ahead) braced
    obtain ⟨tail, rfl, behind⟩ := ahead_split ahead (by rw [braced]; decide)
    rw [whole]
    have bare : (block operand p.advance).2.current.kind ≠ .leftBrace := by
      intro left
      rw [left] at ends
      cases ends
    have closes : ∀ t ∈ us.head?, t.kind = .rightBrace := by
      cases us with
      | nil => exact fun t front => nomatch front
      | cons t us =>
        intro u front
        cases front
        exact closing_of_endsBlock last ends
    exact ⟨(Reaches.advance .refl).trans moves, us.tail, faces_of_ahead (ahead_of_on last) bare,
      (List.tail_suffix us).trans (suffix.trans (List.suffix_cons _ _)), fun _ _ => bare,
      fares.across braced closing.surplus closes⟩
  · have failed : expect .leftBrace p = fail (.unexpected .leftBrace p.peek.kind) p.peek p :=
      if_neg braced
    have settles : p.Settles ts (expect .leftBrace p) := by
      rw [failed]
      exact Steps.fail rfl p ts ready closing ahead plain
    rw [bind_of_error failed]
    rw [failed] at settles
    obtain ⟨moves, us, faces, suffix, _, fares⟩ := settles
    refine ⟨moves, us, faces, suffix, ?_, fares⟩
    intro block built
    cases built

theorem steps_braced {next : Block → Rule α} (after : ∀ b, (next b).Steps) :
    (expect .leftBrace >>= fun _ => always (block operand) >>= next).Steps := by
  rw [← bind_assoc]
  exact (steps_block lands).bind after

end Statement

namespace Expression

omit lands in
theorem steps_integer : integer.Steps := by
  intro p ts ready closing ahead plain
  unfold integer
  split
  · exact Steps.stay ahead plain
  · exact Steps.fail rfl p ts ready closing ahead plain

theorem steps_unary : (unary operand).Steps :=
  Steps.here.bind fun _ => Steps.advance ((lands _).bind fun _ => Steps.pure _)

theorem steps_group : (group operand).Steps :=
  Steps.advance ((lands _).bind fun _ =>
    (Steps.expect (by decide) (by decide) (by decide)).bind fun _ => Steps.pure _)

theorem steps_conditional : (conditional operand).Steps :=
  Steps.here.bind fun _ => (Steps.expect (by decide) (by decide) (by decide)).bind fun _ =>
    Steps.advance ((lands _).bind fun _ =>
      (Steps.expect (by decide) (by decide) (by decide)).bind fun _ =>
        Statement.steps_braced lands fun _ =>
          (Steps.accept (by decide) (by decide) (by decide)).bind fun _ =>
            Steps.ite (Statement.steps_braced lands fun _ => Steps.pure _) (Steps.pure _))

omit lands in
theorem steps_moreParameters (rounds : Nat) : (moreParameters rounds).Steps := by
  induction rounds with
  | zero => exact Steps.pure _
  | succ rounds ih =>
    exact (Steps.accept (by decide) (by decide) (by decide)).bind fun _ =>
      Steps.ite ((Steps.expect (by decide) (by decide) (by decide)).bind fun _ =>
        Steps.name.bind fun _ => ih.bind fun _ => Steps.pure _) (Steps.pure _)

omit lands in
theorem steps_parameters : parameters.Steps :=
  (Steps.accept (by decide) (by decide) (by decide)).bind fun _ => Steps.ite (Steps.pure _)
    ((Steps.expect (by decide) (by decide) (by decide)).bind fun _ => Steps.name.bind fun _ =>
      Steps.bind (fun p => steps_moreParameters p.span p) fun _ =>
        (Steps.expect (by decide) (by decide) (by decide)).bind fun _ => Steps.pure _)

theorem steps_function : (function operand).Steps :=
  Steps.here.bind fun _ => (Steps.expect (by decide) (by decide) (by decide)).bind fun _ =>
    steps_parameters.bind fun _ => Statement.steps_braced lands fun _ => Steps.pure _

theorem steps_moreItems (rounds : Nat) : (moreItems operand rounds).Steps := by
  induction rounds with
  | zero => exact Steps.pure _
  | succ rounds ih =>
    exact (Steps.accept (by decide) (by decide) (by decide)).bind fun _ =>
      Steps.ite (Steps.advance ((lands _).bind fun _ => ih.bind fun _ => Steps.pure _))
        (Steps.pure _)

theorem steps_items {closing : Kind} (present : closing ≠ .eof) (left : closing ≠ .leftBrace)
    (right : closing ≠ .rightBrace) : (items operand closing).Steps :=
  (Steps.accept present left right).bind fun _ => Steps.ite (Steps.pure _)
    (Steps.advance ((lands _).bind fun _ =>
      Steps.bind (fun p => steps_moreItems lands p.span p) fun _ =>
        (Steps.expect present left right).bind fun _ => Steps.pure _))

theorem steps_array : (array operand).Steps :=
  Steps.here.bind fun _ =>
    (steps_items lands (by decide) (by decide) (by decide)).bind fun _ => Steps.pure _

theorem steps_opening (rule : Opening) : (opening operand rule).Steps := by
  cases rule with
  | name => exact Steps.name.bind fun _ => Steps.pure _
  | integer => exact steps_integer
  | string => exact Steps.here.bind fun _ => Steps.pure _
  | boolean => exact Steps.here.bind fun _ => Steps.pure _
  | unary => exact steps_unary lands
  | group => exact steps_group lands
  | conditional => exact steps_conditional lands
  | function => exact steps_function lands
  | array => exact steps_array lands

theorem steps_continuation (left : Expr) (rule : Continuation) :
    (continuation operand left rule).Steps := by
  cases rule with
  | binary =>
    exact Steps.here.bind fun _ => Steps.strength.bind fun _ =>
      Steps.advance ((lands _).bind fun _ => Steps.pure _)
  | call =>
    exact Steps.here.bind fun _ =>
      (steps_items lands (by decide) (by decide) (by decide)).bind fun _ => Steps.pure _
  | index =>
    exact Steps.here.bind fun _ => Steps.advance ((lands _).bind fun _ =>
      (Steps.expect (by decide) (by decide) (by decide)).bind fun _ => Steps.pure _)

omit lands in
theorem no_brace_of_continuation {k : Kind} {step : Continuation}
    (ruled : RuleTable.standard.continuation k = some step) :
    k ≠ .eof ∧ k ≠ .leftBrace ∧ k ≠ .rightBrace := by
  cases k <;> cases ruled <;> decide

omit lands in
theorem no_brace_of_opening {k : Kind} {rule : Opening}
    (opens : RuleTable.standard.opening k = some rule) :
    k ≠ .eof ∧ k ≠ .leftBrace ∧ k ≠ .rightBrace := by
  cases k <;> cases opens <;> decide

theorem steps_climb (bound : Precedence) (rounds : Nat) (left : Expr) :
    (climb operand bound rounds left).Steps := by
  induction rounds generalizing left with
  | zero => exact fun p ts _ _ ahead plain => Steps.stay ahead plain
  | succ rounds ih =>
    intro p ts ready closing ahead plain
    by_cases more : continues bound p = true
    · cases ruled : p.table.continuation p.peek.kind with
      | none =>
        rw [climb_unruled ruled]
        exact Steps.stay ahead plain
      | some step =>
        rw [climb_step more ruled]
        rw [ready.table] at ruled
        obtain ⟨present, left, right⟩ := no_brace_of_continuation ruled
        have settles : p.Settles ts (Rule.advance p) := Steps.move ahead present left right
        exact settles.bind ready closing fun _ => (steps_continuation lands _ step).bind ih
    · rw [climb_stop more]
      exact Steps.stay ahead plain

theorem lands_start (bound : Precedence) : (start operand bound).Lands := by
  intro p ts ready closing on
  unfold start
  cases opens : p.table.opening p.current.kind with
  | none => exact Lands.stuck (fun _ => rfl) on
  | some rule =>
    rw [ready.table] at opens
    obtain ⟨present, left, right⟩ := no_brace_of_opening opens
    exact Lands.of_steps ((steps_opening lands rule).bind (steps_climb lands bound p.span)) ready
      closing on present left right

end Expression

end

theorem Expression.lands_within (levels : Nat) (bound : Precedence) :
    (within levels bound).Lands := by
  induction levels generalizing bound with
  | zero => exact fun p ts _ _ on => Lands.stuck (fun _ => rfl) on
  | succ levels ih =>
    intro p ts ready closing on
    obtain ⟨moves, settled⟩ :=
      lands_start ih bound { p with depth := p.depth + 1 } ts (ready.at_depth _) closing on
    exact ⟨moves.outwards, settled⟩

end PrattFrontEnd
