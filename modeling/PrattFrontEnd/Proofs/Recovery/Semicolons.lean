import Mathlib.Data.List.Chain
import PrattFrontEnd.Proofs.Parser.Alongside
import PrattFrontEnd.Proofs.Recovery.Braces

/-!
Where one statement has no influence on the next. In front of a semicolon outside of all braces, if
no block is closed in the middle of a statement, whatever fails is over with the semicolon: what
stands behind it is parsed as if it stood alone. The parser is run in lockstep with one that has no
tokens behind that semicolon. Main statement: `semicolon_separates`.
-/
namespace PrattFrontEnd

open PrattFrontEnd.Parser

/-- Every closing brace stands directly behind a brace or a semicolon. -/
def Terminated (ts : List Token) : Prop :=
  ts.IsChain fun t u => u.kind = .rightBrace →
    t.kind = .leftBrace ∨ t.kind = .rightBrace ∨ t.kind = .semicolon

instance (ts : List Token) : Decidable (Terminated ts) :=
  inferInstanceAs (Decidable (ts.IsChain _))

theorem openBraces_closing (n : Nat) {k : Kind} (closes : k = .rightBrace → n ≠ 0) :
    (openBraces n k : Int) = n - k.closing := by
  unfold openBraces Kind.closing
  split
  · rename_i left
    subst left
    simp
  · split
    · rename_i right
      have positive := closes right
      omega
    · omega

/-- What may be left of the tokens in front of a semicolon, that semicolon included. -/
structure Stretch (ts : List Token) : Prop where
  noEnd : ∀ t ∈ ts, t.kind ≠ .eof
  closing : Closing ts
  terminated : Terminated ts
  last : ∀ t ∈ ts.getLast?, t.kind = .semicolon

namespace Stretch

variable {t u : Token} {ts us : List Token}

theorem tail (stretch : Stretch (t :: ts)) : Stretch ts := by
  refine ⟨?_, stretch.closing.of_suffix (List.suffix_cons t ts), stretch.terminated.of_cons, ?_⟩
  · intro u member
    exact stretch.noEnd u (List.mem_cons_of_mem t member)
  · intro u last
    apply stretch.last
    rw [List.getLast?_cons, Option.mem_def.1 last]
    rfl

theorem head (stretch : Stretch (t :: ts)) : t.kind ≠ .eof :=
  stretch.noEnd t List.mem_cons_self

theorem further (stretch : Stretch (t :: ts)) (other : t.kind ≠ .semicolon) :
    ∃ u us, ts = u :: us := by
  cases ts with
  | nil => exact absurd (stretch.last t rfl) other
  | cons u us => exact ⟨u, us, rfl⟩

theorem before_closing (stretch : Stretch (t :: u :: us)) (inner : t.kind.inner = true) :
    u.kind ≠ .rightBrace := by
  intro brace
  obtain ⟨_, semicolon, left, right⟩ := Kind.inner_iff.1 inner
  rcases (List.isChain_cons_cons.1 stretch.terminated).1 brace with same | same | same
  · exact left same
  · exact right same
  · exact semicolon same

end Stretch

/-- Some tokens up to the semicolon are left, and behind them the one side has more and the other
side has nothing. -/
def Ahead (more done : Stream' Token) (holds : Token → List Token → Prop)
    (σ τ : Stream' Token) : Prop :=
  ∃ t ts, Stretch (t :: ts) ∧ holds t ts ∧ σ = (t :: ts) ++ₛ more ∧ τ = (t :: ts) ++ₛ done

namespace Ahead

section

variable (more done : Stream' Token) (n k : Nat)

def Lands : Stream' Token → Stream' Token → Prop := Ahead more done fun t ts => surplus (t :: ts) = k

def Wants : Stream' Token → Stream' Token → Prop :=
  Ahead more done fun t ts => t.kind ≠ .rightBrace ∧ surplus (t :: ts) = k

def Stands : Stream' Token → Stream' Token → Prop :=
  Ahead more done fun t ts => t.kind ≠ .leftBrace ∧ (∃ u us, ts = u :: us) ∧ surplus ts = k

def Rests : Stream' Token → Stream' Token → Prop := Ahead more done fun _ ts => surplus ts = k

def Fails : Stream' Token → Stream' Token → Prop :=
  Ahead more done fun t ts => surplus ts = k + openBraces 0 t.kind

def Skips : Stream' Token → Stream' Token → Prop := Ahead more done fun _ ts => surplus ts = k + n

end

variable {more done σ τ : Stream' Token} {n k : Nat}

theorem head {holds : Token → List Token → Prop} (here : Ahead more done holds σ τ) :
    σ.head = τ.head := by
  obtain ⟨t, ts, _, _, rfl, rfl⟩ := here
  rfl

theorem heads (here : Stands more done k σ τ) :
    σ.head = τ.head ∧ σ.tail.head = τ.tail.head := by
  obtain ⟨t, _, _, ⟨_, ⟨u, us, rfl⟩, _⟩, rfl, rfl⟩ := here
  exact ⟨rfl, rfl⟩

theorem begins (here : Lands more done k σ τ) (inside : σ.head.kind = .rightBrace → k = 0) :
    Wants more done k σ τ := by
  obtain ⟨t, ts, stretch, level, rfl, rfl⟩ := here
  refine ⟨t, ts, stretch, ⟨?_, level⟩, rfl, rfl⟩
  intro brace
  have none : k = 0 := inside brace
  have rest := stretch.tail.closing.surplus
  rw [surplus_cons, brace, show Kind.closing .rightBrace = 1 from rfl] at level
  omega

theorem takes (here : Wants more done k σ τ) (inner : σ.head.kind.inner = true) :
    Stands more done k σ τ := by
  obtain ⟨t, ts, stretch, ⟨_, level⟩, rfl, rfl⟩ := here
  have kind : t.kind.inner = true := inner
  obtain ⟨_, semicolon, left, right⟩ := Kind.inner_iff.1 kind
  rw [surplus_cons, closing_of_other left right, Int.zero_add] at level
  exact ⟨t, ts, stretch, ⟨left, stretch.further semicolon, level⟩, rfl, rfl⟩

theorem moves (here : Stands more done k σ τ) (inner : σ.tail.head.kind.inner = true) :
    Stands more done k σ.tail τ.tail := by
  obtain ⟨t, _, stretch, ⟨_, ⟨u, us, rfl⟩, level⟩, rfl, rfl⟩ := here
  have kind : u.kind.inner = true := inner
  obtain ⟨_, semicolon, left, right⟩ := Kind.inner_iff.1 kind
  rw [surplus_cons, closing_of_other left right, Int.zero_add] at level
  exact ⟨u, us, stretch.tail, ⟨left, stretch.tail.further semicolon, level⟩, rfl, rfl⟩

theorem opens (here : Stands more done k σ τ) (inner : σ.head.kind.inner = true) :
    Wants more done k σ.tail τ.tail := by
  obtain ⟨t, _, stretch, ⟨_, ⟨u, us, rfl⟩, level⟩, rfl, rfl⟩ := here
  exact ⟨u, us, stretch.tail, ⟨stretch.before_closing inner, level⟩, rfl, rfl⟩

theorem enters (here : Stands more done k σ τ) (brace : σ.tail.head.kind = .leftBrace) :
    Lands more done (k + 1) σ.tail.tail τ.tail.tail := by
  obtain ⟨t, _, stretch, ⟨_, ⟨u, us, rfl⟩, level⟩, rfl, rfl⟩ := here
  have kind : u.kind = .leftBrace := brace
  obtain ⟨v, vs, rfl⟩ := stretch.tail.further (by rw [kind]; decide)
  rw [surplus_cons, kind, show Kind.closing .leftBrace = -1 from rfl] at level
  exact ⟨v, vs, stretch.tail.tail, by omega, rfl, rfl⟩

theorem leaves (here : Lands more done (k + 1) σ τ)
    (ends : Statement.endsBlock σ.head.kind = true) : Stands more done k σ τ := by
  obtain ⟨t, ts, stretch, level, rfl, rfl⟩ := here
  have brace : t.kind = .rightBrace := by
    have closes : Statement.endsBlock t.kind = true := ends
    simp only [Statement.endsBlock, Bool.or_eq_true, decide_eq_true_eq] at closes
    exact closes.resolve_right stretch.head
  rw [surplus_cons, brace, show Kind.closing .rightBrace = 1 from rfl] at level
  exact ⟨t, ts, stretch, ⟨by rw [brace]; decide, stretch.further (by rw [brace]; decide), by omega⟩,
    rfl, rfl⟩

theorem halts (here : Stands more done k σ τ) (semicolon : σ.tail.head.kind = .semicolon) :
    Rests more done k σ.tail τ.tail := by
  obtain ⟨t, _, stretch, ⟨_, ⟨u, us, rfl⟩, level⟩, rfl, rfl⟩ := here
  have kind : u.kind = .semicolon := semicolon
  rw [surplus_cons, kind, show Kind.closing .semicolon = 0 from rfl, Int.zero_add] at level
  exact ⟨u, us, stretch.tail, level, rfl, rfl⟩

theorem rests_of_stands (here : Stands more done k σ τ) : Rests more done k σ τ := by
  obtain ⟨t, ts, stretch, ⟨_, _, level⟩, rfl, rfl⟩ := here
  exact ⟨t, ts, stretch, level, rfl, rfl⟩

theorem fails_of_stands (here : Stands more done k σ τ) : Fails more done k σ τ := by
  obtain ⟨t, ts, stretch, ⟨left, _, level⟩, rfl, rfl⟩ := here
  refine ⟨t, ts, stretch, ?_, rfl, rfl⟩
  have none : openBraces 0 t.kind = 0 := by
    rw [openBraces, if_neg left]
    split <;> rfl
  show surplus ts = k + (openBraces 0 t.kind : Int)
  rw [none]
  omega

theorem fails_of_wants (here : Wants more done k σ τ) : Fails more done k σ τ := by
  obtain ⟨t, ts, stretch, ⟨right, level⟩, rfl, rfl⟩ := here
  refine ⟨t, ts, stretch, ?_, rfl, rfl⟩
  have opened := openBraces_closing 0 (k := t.kind) (fun brace => absurd brace right)
  rw [surplus_cons] at level
  omega

theorem skips_of_fails (here : Fails more done k σ τ) :
    Skips more done (openBraces 0 σ.head.kind) k σ τ := by
  obtain ⟨t, ts, stretch, level, rfl, rfl⟩ := here
  exact ⟨t, ts, stretch, level, rfl, rfl⟩

theorem rested (here : Skips more done n k σ τ) (rested : Rested n σ) :
    Rested n τ ∧ Rests more done k σ τ := by
  obtain ⟨t, ts, stretch, level, rfl, rfl⟩ := here
  cases ts with
  | nil =>
    rw [surplus_nil] at level
    have semicolon : t.kind = .semicolon := stretch.last t rfl
    refine ⟨.inr (.inr ⟨by omega, .inl semicolon⟩), t, [], stretch, ?_, rfl, rfl⟩
    show (0 : Int) = k
    omega
  | cons u us =>
    obtain ⟨none, boundary⟩ :=
      (rested.resolve_left stretch.head).resolve_left stretch.tail.head
    exact ⟨.inr (.inr ⟨none, boundary⟩), t, u :: us, stretch, by omega, rfl, rfl⟩

theorem goes (here : Skips more done n k σ τ) (goes : ¬ Rested n σ) :
    ¬ Rested n τ ∧ σ.tail.head = τ.tail.head ∧
      Skips more done (openBraces n σ.tail.head.kind) k σ.tail τ.tail := by
  obtain ⟨t, ts, stretch, level, rfl, rfl⟩ := here
  cases ts with
  | nil =>
    rw [surplus_nil] at level
    have semicolon : t.kind = .semicolon := stretch.last t rfl
    exact absurd (.inr (.inr ⟨by omega, .inl semicolon⟩)) goes
  | cons u us =>
    refine ⟨goes, rfl, u, us, stretch.tail, ?_, rfl, rfl⟩
    have opened := openBraces_closing n (k := u.kind) fun brace none =>
      goes (.inr (.inr ⟨none, .inr brace⟩))
    show surplus us = k + (openBraces n u.kind : Int)
    rw [surplus_cons] at level
    omega

theorem resumes (here : Rests more done k σ τ) :
    Lands more done k σ.tail τ.tail ∨ k = 0 ∧ σ.tail = more ∧ τ.tail = done := by
  obtain ⟨t, ts, stretch, level, rfl, rfl⟩ := here
  cases ts with
  | nil =>
    rw [surplus_nil] at level
    exact .inr ⟨by omega, rfl, rfl⟩
  | cons u us => exact .inl ⟨u, us, stretch.tail, level, rfl, rfl⟩

end Ahead

def Lockstep.upTo (more done : Stream' Token) : Lockstep .equal where
  lands := Ahead.Lands more done
  wants := Ahead.Wants more done
  stands := Ahead.Stands more done
  rests := Ahead.Rests more done
  fails := Ahead.Fails more done
  skips n k := Ahead.Skips more done n k
  parts σ τ := σ = more ∧ τ = done
  alike_lands := Ahead.head
  alike_wants := Ahead.head
  alike_stands := Ahead.heads
  alike_fails := Ahead.head
  begins here _ inside := Ahead.begins here inside
  takes := Ahead.takes
  moves := Ahead.moves
  opens := Ahead.opens
  enters := Ahead.enters
  leaves := Ahead.leaves
  halts := Ahead.halts
  rests_of_stands := Ahead.rests_of_stands
  fails_of_stands := Ahead.fails_of_stands
  fails_of_wants := Ahead.fails_of_wants
  skips_of_fails := Ahead.skips_of_fails
  rested := Ahead.rested
  goes := Ahead.goes
  resumes := Ahead.resumes

theorem Closing.concat {ts : List Token} (closing : Closing ts) {t : Token}
    (other : t.kind.closing = 0) : Closing (ts ++ [t]) := by
  intro us left
  rcases List.suffix_concat_iff.1 left with rfl | ⟨vs, rfl, inner⟩
  · exact Int.le_refl 0
  · have level := closing vs inner
    rw [surplus_append, surplus_cons, surplus_nil, other]
    omega

theorem stretch_of_balanced {front : List Token} {semicolon : Token}
    (kind : semicolon.kind = .semicolon) (noEnd : ∀ t ∈ front, t.kind ≠ .eof)
    (balanced : Balanced front) (terminated : Terminated front) :
    Stretch (front ++ [semicolon]) := by
  refine ⟨?_, balanced.closing.concat (by rw [kind]; rfl), ?_, ?_⟩
  · intro t member
    rcases List.mem_append.1 member with inside | last
    · exact noEnd t inside
    · rw [List.mem_singleton.1 last, kind]
      decide
  · refine List.isChain_append.2 ⟨terminated, .singleton _, ?_⟩
    intro t _ u last brace
    cases last
    rw [kind] at brace
    cases brace
  · intro t last
    rw [List.getLast?_concat] at last
    cases last
    exact kind

theorem run_of_stretch {ts : List Token} (stretch : Stretch ts) (some : ts ≠ [])
    (level : surplus ts = 0) (back : List Token) (maxDepth : Int) :
    ∃ r, (ofList (ts ++ back) maxDepth).Reaches r ∧
      r.upcoming = back ++ₛ Stream'.const (finish (ts ++ back)) ∧
      r.diagnostics = (ofList ts maxDepth).run.diagnostics ∧
      (ofList (ts ++ back) maxDepth).run.program.statements =
        (ofList ts maxDepth).run.program.statements ++ r.run.program.statements ∧
      (ofList (ts ++ back) maxDepth).run.diagnostics = r.run.diagnostics := by
  obtain ⟨t, us, rfl⟩ := List.exists_cons_of_ne_nil some
  have kin : (ofList (t :: us ++ back) maxDepth).Kin [] (ofList (t :: us) maxDepth) :=
    kin_onSource _ _ maxDepth
  have lands : (Lockstep.upTo (back ++ₛ Stream'.const (finish (t :: us ++ back)))
      (Stream'.const (finish (t :: us)))).lands 0 (ofList (t :: us ++ back) maxDepth).upcoming
        (ofList (t :: us) maxDepth).upcoming := by
    refine ⟨t, us, stretch, level, ?_, upcoming_ofList _ maxDepth⟩
    rw [upcoming_ofList, Stream'.append_append_stream]
  obtain ⟨ss, ts, r, s, run⟩ := program_alongside _ kin lands
  rcases run.ends with ⟨⟨u, vs, left, _, there, _⟩, ended⟩ | ⟨_, there, thereToo⟩
  · have here : r.current = u := congrArg Stream'.head there
    simp only [Statement.endsProgram, decide_eq_true_eq] at ended
    exact absurd (here ▸ ended) left.head
  · have ended : Statement.endsProgram s.current.kind = true := by
      have here : s.current = finish (t :: us) := congrArg Stream'.head thereToo
      rw [here]
      rfl
    have same := Likeness.stmts_eq run.alike
    have operand : r.operand = (ofList (t :: us ++ back) maxDepth).operand := by
      rw [Parser.operand, Parser.operand, levels, levels, run.reaches.depth, run.reaches.maxDepth]
    refine ⟨r, run.reaches, there, ?_, ?_, ?_⟩
    · rw [diagnostics_of_run, ← kin.operand, run.builtToo, Statement.statements_closed ended]
      exact run.kin.diagnostics
    · rw [statements_of_run, statements_of_run, statements_of_run, operand, ← kin.operand,
        run.built, run.builtToo, Statement.statements_closed ended, List.append_nil, same]
    · rw [diagnostics_of_run, diagnostics_of_run, operand, run.built]

/-- Whatever stands in front of a semicolon outside of all braces, malformed or not: if every block
in it is closed behind a brace or a semicolon, what stands behind that semicolon is parsed as if it
stood alone. -/
theorem semicolon_separates (front back : List Token) (semicolon : Token)
    (kind : semicolon.kind = .semicolon) (noEnd : ∀ t ∈ front, t.kind ≠ .eof)
    (balanced : Balanced front) (terminated : Terminated front) (maxDepth : Int) :
    (ofList (front ++ semicolon :: back) maxDepth).run.program.statements =
        (ofList (front ++ [semicolon]) maxDepth).run.program.statements ++
          (ofList back maxDepth).run.program.statements ∧
      (ofList (front ++ semicolon :: back) maxDepth).run.diagnostics =
        (ofList (front ++ [semicolon]) maxDepth).run.diagnostics ++
          (ofList back maxDepth).run.diagnostics := by
  have stretch := stretch_of_balanced kind noEnd balanced terminated
  have level : surplus (front ++ [semicolon]) = 0 := by
    rw [surplus_append, balanced.settled, surplus_cons, kind]
    rfl
  have split : front ++ semicolon :: back = (front ++ [semicolon]) ++ back := by
    rw [List.append_assoc, List.singleton_append]
  rw [split]
  generalize whole : front ++ [semicolon] = ts at stretch level
  have some : ts ≠ [] := by
    rw [← whole]
    exact List.append_ne_nil_of_right_ne_nil front (List.cons_ne_nil semicolon [])
  cases back with
  | nil =>
    -- A list without tokens has its end elsewhere, but there is nothing to be parsed in it.
    rw [List.append_nil]
    exact ⟨(List.append_nil _).symm, (List.append_nil _).symm⟩
  | cons u us =>
    obtain ⟨r, reaches, coming, reported, statements, diagnostics⟩ :=
      run_of_stretch stretch some level (u :: us) maxDepth
    have kin : r.Kin (ofList ts maxDepth).run.diagnostics (ofList (u :: us) maxDepth) :=
      ⟨(ready_onSource _ _).of_reaches reaches, ready_onSource _ _, reaches.depth, reaches.maxDepth,
        by rw [reported]; exact (List.append_nil _).symm⟩
    have same : r.upcoming = (ofList (u :: us) maxDepth).upcoming := by
      rw [coming, upcoming_ofList, finish_append ts (List.cons_ne_nil u us)]
    have throughout : Likeness.equal.Throughout r.upcoming (ofList (u :: us) maxDepth).upcoming := by
      intro n
      rw [same]
      rfl
    obtain ⟨alike, more⟩ := run_alike kin throughout
    rw [statements, diagnostics, Likeness.stmts_eq alike, more]
    exact ⟨rfl, rfl⟩

/-- A parenthesis that is never closed, and a block with a statement that lacks its value. -/
def malformedFunction : List Token := (tokenize "let f = (fn(x) { return; }").dropLast

theorem malformed_function_separated :
    (ofList malformedFunction 100).run.diagnostics ≠ [] ∧
      (ofList (malformedFunction ++ ⟨.semicolon, ";", ⟨1, 28⟩⟩ :: (tokenize "a + 1").dropLast)
          100).run.program.statements =
        (ofList (malformedFunction ++ [⟨.semicolon, ";", ⟨1, 28⟩⟩]) 100).run.program.statements ++
          (ofList (tokenize "a + 1").dropLast 100).run.program.statements := by
  refine ⟨by decide +kernel, ?_⟩
  exact (semicolon_separates malformedFunction (tokenize "a + 1").dropLast
    ⟨.semicolon, ";", ⟨1, 28⟩⟩ rfl (by decide +kernel) (by decide +kernel) (by decide +kernel) 100).1

end PrattFrontEnd
