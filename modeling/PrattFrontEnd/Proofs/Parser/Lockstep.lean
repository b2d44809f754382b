import PrattFrontEnd.Proofs.Parser.Rounds
import PrattFrontEnd.Proofs.Parser.Upcoming
import PrattFrontEnd.Proofs.Syntax.Likeness

/-!
Two runs in lockstep. Two parsers that see what is alike where they look do the same: they build what
is alike or fail together, with the same diagnostics. How far they have to look depends on where they
are in a statement, and a lockstep says for each such position what the tokens to come may be on the
two sides. Main statement: `Lockstep.Runs.bind` and its companions, one for each way to make a rule.
-/
namespace PrattFrontEnd

open Rule PrattFrontEnd.Parser

def Kind.inner (k : Kind) : Bool := k ∉ [.eof, .semicolon, .leftBrace, .rightBrace]

theorem Kind.inner_iff {k : Kind} :
    k.inner = true ↔ k ≠ .eof ∧ k ≠ .semicolon ∧ k ≠ .leftBrace ∧ k ≠ .rightBrace := by
  simp [inner]

namespace Parser

/-- Whether skipping stops here, with so many braces open behind the current token. -/
def Rested (opened : Nat) (coming : Stream' Token) : Prop :=
  coming.head.kind = .eof ∨ coming.tail.head.kind = .eof ∨
    opened = 0 ∧ (coming.head.kind = .semicolon ∨ coming.tail.head.kind = .rightBrace)

theorem skipStatement_rested {p : Parser} {opened : Nat}
    (rested : Rested (openBraces opened p.current.kind) p.upcoming) :
    p.skipStatement opened = p := by
  rw [Rested, upcoming_head, upcoming_next] at rested
  unfold skipStatement
  split
  · rfl
  · rename_i more
    split
    · rfl
    · rename_i further
      obtain ⟨closed, boundary⟩ := (rested.resolve_left more).resolve_left further
      rw [if_pos]
      simpa [closed] using boundary

theorem skipStatement_goes {p : Parser} {opened : Nat}
    (goes : ¬ Rested (openBraces opened p.current.kind) p.upcoming) :
    p.skipStatement opened = p.advance.skipStatement (openBraces opened p.current.kind) := by
  rw [Rested, upcoming_head, upcoming_next, not_or, not_or] at goes
  obtain ⟨more, further, inside⟩ := goes
  rw [skipStatement, if_neg more, dif_neg further, if_neg]
  simpa using inside

/-- Two parsers that differ in nothing but the tokens to come and in what was reported before. -/
structure Kin (lead : List Diagnostic) (p q : Parser) : Prop where
  ready : p.Ready
  readyToo : q.Ready
  depth : p.depth = q.depth
  maxDepth : p.maxDepth = q.maxDepth
  diagnostics : p.diagnostics = lead ++ q.diagnostics

namespace Kin

variable {lead : List Diagnostic} {p q : Parser}

theorem advance (kin : p.Kin lead q) : p.advance.Kin lead q.advance :=
  ⟨kin.ready.of_reaches (.advance .refl), kin.readyToo.of_reaches (.advance .refl), kin.depth,
    kin.maxDepth, kin.diagnostics⟩

theorem skipping (kin : p.Kin lead q) (t u : Token) :
    (p.note (.skipping t)).Kin lead (q.note (.skipping u)) := by
  refine ⟨kin.ready.of_reaches (.note _ .refl), kin.readyToo.of_reaches (.note _ .refl), kin.depth,
    kin.maxDepth, ?_⟩
  have same := kin.diagnostics
  simpa [Parser.diagnostics, note, Event.failure?] using same

theorem report (kin : p.Kin lead q) {f g : Failure} (same : f.diagnostic = g.diagnostic) :
    (p.report f).Kin lead (q.report g) := by
  refine ⟨kin.ready.of_reaches (.note _ .refl), kin.readyToo.of_reaches (.note _ .refl), kin.depth,
    kin.maxDepth, ?_⟩
  rw [diagnostics_report, diagnostics_report, kin.diagnostics, same, List.append_assoc]

theorem at_depth (kin : p.Kin lead q) {depth other : Nat} (same : depth = other) :
    Kin lead { p with depth } { q with depth := other } :=
  ⟨kin.ready.at_depth depth, kin.readyToo.at_depth other, same, kin.maxDepth, kin.diagnostics⟩

end Kin

theorem kin_onSource (s s' : Source) (maxDepth : Int) :
    (onSource s maxDepth).Kin [] (onSource s' maxDepth) :=
  ⟨ready_onSource _ _, ready_onSource _ _, rfl, rfl, rfl⟩

end Parser

/-- What the tokens to come may be on the two sides, with so many blocks around. Each field says
where a move leads, from what both sides see. -/
structure Lockstep (like : Likeness) where
  /-- In front of a statement or of the end of a sequence. -/
  lands : Nat → Stream' Token → Stream' Token → Prop
  /-- In front of an expression. -/
  wants : Nat → Stream' Token → Stream' Token → Prop
  /-- Inside of a statement, on a token that has been dealt with. -/
  stands : Nat → Stream' Token → Stream' Token → Prop
  /-- On the last token of a statement. -/
  rests : Nat → Stream' Token → Stream' Token → Prop
  /-- Where a statement has failed. -/
  fails : Nat → Stream' Token → Stream' Token → Prop
  /-- Skipping the rest of a statement, with some braces opened meanwhile. -/
  skips : Nat → Nat → Stream' Token → Stream' Token → Prop
  /-- Where the two sides part. -/
  parts : Stream' Token → Stream' Token → Prop
  alike_lands {k σ τ} (here : lands k σ τ) : like.token σ.head τ.head
  alike_wants {k σ τ} (here : wants k σ τ) : like.token σ.head τ.head
  alike_stands {k σ τ} (here : stands k σ τ) :
    like.token σ.head τ.head ∧ like.token σ.tail.head τ.tail.head
  alike_fails {k σ τ} (here : fails k σ τ) : like.token σ.head τ.head
  begins {k σ τ} (here : lands k σ τ) (more : σ.head.kind ≠ .eof)
    (inside : σ.head.kind = .rightBrace → k = 0) : wants k σ τ
  takes {k σ τ} (here : wants k σ τ) (inner : σ.head.kind.inner = true) : stands k σ τ
  moves {k σ τ} (here : stands k σ τ) (inner : σ.tail.head.kind.inner = true) :
    stands k σ.tail τ.tail
  opens {k σ τ} (here : stands k σ τ) (inner : σ.head.kind.inner = true) : wants k σ.tail τ.tail
  enters {k σ τ} (here : stands k σ τ) (brace : σ.tail.head.kind = .leftBrace) :
    lands (k + 1) σ.tail.tail τ.tail.tail
  leaves {k σ τ} (here : lands (k + 1) σ τ) (ends : Statement.endsBlock σ.head.kind = true) :
    stands k σ τ
  halts {k σ τ} (here : stands k σ τ) (semicolon : σ.tail.head.kind = .semicolon) :
    rests k σ.tail τ.tail
  rests_of_stands {k σ τ} (here : stands k σ τ) : rests k σ τ
  fails_of_stands {k σ τ} (here : stands k σ τ) : fails k σ τ
  fails_of_wants {k σ τ} (here : wants k σ τ) : fails k σ τ
  skips_of_fails {k σ τ} (here : fails k σ τ) : skips (openBraces 0 σ.head.kind) k σ τ
  rested {n k σ τ} (here : skips n k σ τ) (rested : Rested n σ) : Rested n τ ∧ rests k σ τ
  goes {n k σ τ} (here : skips n k σ τ) (goes : ¬ Rested n σ) :
    ¬ Rested n τ ∧ like.token σ.tail.head τ.tail.head ∧
      skips (openBraces n σ.tail.head.kind) k σ.tail τ.tail
  resumes {k σ τ} (here : rests k σ τ) :
    lands k σ.tail τ.tail ∨ k = 0 ∧ parts σ.tail τ.tail

namespace Lockstep

variable {like : Likeness} (lockstep : Lockstep like) {lead : List Diagnostic} {k : Nat}

theorem skipped {p q : Parser} {opened : Nat} (kin : p.Kin lead q)
    (heads : like.token p.current q.current)
    (here : lockstep.skips (openBraces opened p.current.kind) k p.upcoming q.upcoming) :
    (p.skipStatement opened).Kin lead (q.skipStatement opened) ∧
      lockstep.rests k (p.skipStatement opened).upcoming (q.skipStatement opened).upcoming := by
  induction left : p.horizon using Nat.strongRecOn generalizing p q opened with
  | ind left ih =>
    have kinds := like.kind heads
    by_cases rested : Rested (openBraces opened p.current.kind) p.upcoming
    · obtain ⟨restedToo, rests⟩ := lockstep.rested here rested
      rw [kinds] at restedToo
      rw [skipStatement_rested rested, skipStatement_rested restedToo]
      exact ⟨kin, rests⟩
    · obtain ⟨goes, next, skips⟩ := lockstep.goes here rested
      have more : p.current.kind ≠ .eof := fun ended => rested (Or.inl ended)
      have shorter := horizon_advance_lt (horizon_pos_of_current more)
      rw [kinds] at goes
      rw [skipStatement_goes rested, skipStatement_goes goes, ← kinds]
      rw [← upcoming_advance, ← upcoming_advance] at skips
      exact ih _ (left ▸ shorter) kin.advance next skips rfl

theorem synchronized {p q : Parser} (kin : p.Kin lead q)
    (here : lockstep.fails k p.upcoming q.upcoming) :
    p.synchronize.Kin lead q.synchronize ∧
      lockstep.rests k p.synchronize.upcoming q.synchronize.upcoming :=
  lockstep.skipped (kin.skipping p.current q.current) (lockstep.alike_fails here)
    (lockstep.skips_of_fails here)

/-- What comes of a rule on the two sides: both build something, or both fail. -/
inductive Ends (lead : List Diagnostic) (k : Nat)
    (done : α → α → Stream' Token → Stream' Token → Prop) :
    Except Failure α × Parser → Except Failure α × Parser → Prop where
  | built {a b : α} {p q : Parser} (kin : p.Kin lead q) (here : done a b p.upcoming q.upcoming) :
      Ends lead k done (.ok a, p) (.ok b, q)
  | failed {f g : Failure} {p q : Parser} (kin : p.Kin lead q)
      (here : lockstep.fails k p.upcoming q.upcoming) : Ends lead k done (.error f, p) (.error g, q)

/-- Two rules that lead from the one position to the other. -/
def Runs (lead : List Diagnostic) (k : Nat) (start : Stream' Token → Stream' Token → Prop)
    (done : α → α → Stream' Token → Stream' Token → Prop) (rule other : Rule α) : Prop :=
  ∀ p q : Parser, p.Kin lead q → start p.upcoming q.upcoming →
    lockstep.Ends lead k done (rule p) (other q)

def Poised (k : Nat) (σ τ : Stream' Token) : Prop :=
  lockstep.stands k σ τ ∧ σ.head.kind.inner = true

def Standing (k : Nat) (rel : α → α → Prop) (a b : α) (σ τ : Stream' Token) : Prop :=
  rel a b ∧ lockstep.stands k σ τ

def Resting (k : Nat) (rel : α → α → Prop) (a b : α) (σ τ : Stream' Token) : Prop :=
  rel a b ∧ lockstep.rests k σ τ

section

variable {lockstep} {start : Stream' Token → Stream' Token → Prop}
variable {done : β → β → Stream' Token → Stream' Token → Prop}

theorem Ends.fail {p q : Parser} {d e : Diagnostic} (kin : p.Kin lead q)
    (here : lockstep.fails k p.upcoming q.upcoming) (same : d = e) (t u : Token) :
    lockstep.Ends lead k done (Rule.fail d t p) (Rule.fail e u q) :=
  .failed (kin.report same) here

theorem Ends.bind {mid : α → α → Stream' Token → Stream' Token → Prop}
    {first other : Rule α} {next nextToo : α → Rule β} {p q : Parser}
    (ends : lockstep.Ends lead k mid (first p) (other q))
    (after : ∀ a b, lockstep.Runs lead k (mid a b) done (next a) (nextToo b)) :
    lockstep.Ends lead k done ((first >>= next) p) ((other >>= nextToo) q) := by
  rw [bind_apply, bind_apply]
  cases one : first p with
  | mk result r =>
    cases two : other q with
    | mk resultToo s =>
      rw [one, two] at ends
      cases ends with
      | built kin here => exact after _ _ _ _ kin here
      | failed kin here => exact .failed kin here

namespace Runs

theorem bind {mid : α → α → Stream' Token → Stream' Token → Prop} {first other : Rule α}
    {next nextToo : α → Rule β} (before : lockstep.Runs lead k start mid first other)
    (after : ∀ a b, lockstep.Runs lead k (mid a b) done (next a) (nextToo b)) :
    lockstep.Runs lead k start done (first >>= next) (other >>= nextToo) :=
  fun p q kin here => (before p q kin here).bind after

theorem andThen {rel : α → α → Prop} {first other : Rule α} {next nextToo : α → Rule β}
    (before : lockstep.Runs lead k start (lockstep.Standing k rel) first other)
    (after : ∀ a b, rel a b → lockstep.Runs lead k (lockstep.stands k) done (next a) (nextToo b)) :
    lockstep.Runs lead k start done (first >>= next) (other >>= nextToo) :=
  before.bind fun a b p q kin here => after a b here.1 p q kin here.2

theorem pure {a b : β} (here : ∀ σ τ, start σ τ → done a b σ τ) :
    lockstep.Runs lead k start done (Pure.pure a) (Pure.pure b) :=
  fun p q kin begun => .built kin (here p.upcoming q.upcoming begun)

theorem stand {rel : β → β → Prop} {a b : β} (alike : rel a b) :
    lockstep.Runs lead k (lockstep.stands k) (lockstep.Standing k rel) (Pure.pure a)
      (Pure.pure b) :=
  pure fun _ _ here => ⟨alike, here⟩

theorem of_poised {rule other : Rule β}
    (runs : lockstep.Runs lead k (lockstep.stands k) done rule other) :
    lockstep.Runs lead k (lockstep.Poised k) done rule other :=
  fun p q kin here => runs p q kin here.1

theorem here {next nextToo : Token → Rule β}
    (alike : ∀ σ τ, start σ τ → like.token σ.head τ.head)
    (after : ∀ t u, like.token t u → lockstep.Runs lead k start done (next t) (nextToo u)) :
    lockstep.Runs lead k start done (Rule.here >>= next) (Rule.here >>= nextToo) :=
  fun p q kin begun => after p.current q.current (alike p.upcoming q.upcoming begun) p q kin begun

theorem alike_poised (σ τ : Stream' Token) (here : lockstep.Poised k σ τ) :
    like.token σ.head τ.head :=
  (lockstep.alike_stands here.1).1

theorem strength {next nextToo : Precedence → Rule β}
    (after : ∀ bound, lockstep.Runs lead k (lockstep.Poised k) done (next bound) (nextToo bound)) :
    lockstep.Runs lead k (lockstep.Poised k) done (Rule.strength >>= next)
      (Rule.strength >>= nextToo) := by
  intro p q kin here
  have kinds : p.current.kind = q.current.kind := like.kind (alike_poised _ _ here)
  have same : p.currentPrecedence = q.currentPrecedence := by
    rw [currentPrecedence, currentPrecedence, kin.ready.table, kin.readyToo.table, kinds]
  have onward := after p.currentPrecedence p q kin here
  rw [bind_apply, bind_apply]
  simp only [Rule.strength, ← same]
  exact onward

theorem name {next nextToo : Name → Rule β}
    (after : ∀ n m : Name, like.token n.token m.token ∧ n.text = m.text →
      lockstep.Runs lead k (lockstep.Poised k) done (next n) (nextToo m)) :
    lockstep.Runs lead k (lockstep.Poised k) done (Rule.name >>= next)
      (Rule.name >>= nextToo) := by
  intro p q kin here
  have alike : like.token p.current q.current := alike_poised _ _ here
  exact after ⟨p.current, p.current.text⟩ ⟨q.current, q.current.text⟩ ⟨alike, like.text alike⟩ p q
    kin here

theorem advance {rule other : Rule β}
    (runs : lockstep.Runs lead k (lockstep.wants k) done rule other) :
    lockstep.Runs lead k (lockstep.Poised k) done (Rule.advance >>= fun _ => rule)
      (Rule.advance >>= fun _ => other) := by
  intro p q kin here
  have behind := lockstep.opens here.1 here.2
  rw [← upcoming_advance, ← upcoming_advance] at behind
  exact runs p.advance q.advance kin.advance behind

theorem peeks {p q : Parser} (here : lockstep.stands k p.upcoming q.upcoming) :
    p.peek.kind = q.peek.kind :=
  like.kind (lockstep.alike_stands here).2

theorem moved {p q : Parser} (here : lockstep.stands k p.upcoming q.upcoming)
    (inner : p.peek.kind.inner = true) : lockstep.Poised k p.advance.upcoming q.advance.upcoming := by
  rw [upcoming_advance, upcoming_advance]
  exact ⟨lockstep.moves here inner, inner⟩

theorem expect {wanted : Kind} {rule other : Rule β} (inner : wanted.inner = true)
    (runs : lockstep.Runs lead k (lockstep.Poised k) done rule other) :
    lockstep.Runs lead k (lockstep.stands k) done (Rule.expect wanted >>= fun _ => rule)
      (Rule.expect wanted >>= fun _ => other) := by
  intro p q kin here
  have same := peeks here
  by_cases found : p.peek.kind = wanted
  · have one : Rule.expect wanted p = (.ok (), p.advance) := if_pos found
    have two : Rule.expect wanted q = (.ok (), q.advance) := if_pos (same ▸ found)
    rw [bind_of_ok one, bind_of_ok two]
    exact runs p.advance q.advance kin.advance (moved here (found ▸ inner))
  · have one : Rule.expect wanted p = Rule.fail (.unexpected wanted p.peek.kind) p.peek p :=
      if_neg found
    have two : Rule.expect wanted q = Rule.fail (.unexpected wanted q.peek.kind) q.peek q :=
      if_neg (same ▸ found)
    rw [bind_of_error one, bind_of_error two]
    exact .fail kin (lockstep.fails_of_stands here) (by rw [same]) p.peek q.peek

theorem accept {kind : Kind} {yes yesToo no noToo : Rule β} (inner : kind.inner = true)
    (stands : ∀ σ τ, start σ τ → lockstep.stands k σ τ)
    (taken : lockstep.Runs lead k (lockstep.Poised k) done yes yesToo)
    (left : lockstep.Runs lead k start done no noToo) :
    lockstep.Runs lead k start done (Rule.accept kind >>= fun found => if found then yes else no)
      (Rule.accept kind >>= fun found => if found then yesToo else noToo) := by
  intro p q kin here
  have standing := stands _ _ here
  have same := peeks standing
  by_cases found : p.peek.kind = kind
  · rw [bind_of_ok (accept_yes found), bind_of_ok (accept_yes (same ▸ found))]
    exact taken p.advance q.advance kin.advance (moved standing (found ▸ inner))
  · rw [bind_of_ok (accept_no found), bind_of_ok (accept_no (same ▸ found))]
    exact left p q kin here

theorem accept_semicolon {rel : β → β → Prop} {a b : β} (alike : rel a b) :
    lockstep.Runs lead k (lockstep.stands k) (lockstep.Resting k rel)
      (Rule.accept .semicolon >>= fun _ => Pure.pure a)
      (Rule.accept .semicolon >>= fun _ => Pure.pure b) := by
  intro p q kin here
  have same := peeks here
  by_cases found : p.peek.kind = .semicolon
  · rw [bind_of_ok (accept_yes found), bind_of_ok (accept_yes (same ▸ found))]
    refine .built kin.advance ⟨alike, ?_⟩
    rw [upcoming_advance, upcoming_advance]
    exact lockstep.halts here found
  · rw [bind_of_ok (accept_no found), bind_of_ok (accept_no (same ▸ found))]
    exact .built kin ⟨alike, lockstep.rests_of_stands here⟩

end Runs

end

end Lockstep

end PrattFrontEnd
