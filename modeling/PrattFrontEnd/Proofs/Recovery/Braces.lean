import PrattFrontEnd.Token

/-!
Braces in lists of tokens. In front of what is left of a balanced list, the closing braces to come
beyond the opening ones are the braces that are open. Main statements: `closing_exists`, a brace that
is open is closed further on, and `closing_unique`, in one place only.
-/
namespace PrattFrontEnd

def Kind.closing (k : Kind) : Int :=
  if k = .rightBrace then 1 else if k = .leftBrace then -1 else 0

def surplus : List Token → Int
  | [] => 0
  | t :: ts => t.kind.closing + surplus ts

@[simp] theorem surplus_nil : surplus [] = 0 := rfl

@[simp] theorem surplus_cons (t : Token) (ts : List Token) :
    surplus (t :: ts) = t.kind.closing + surplus ts := rfl

@[simp] theorem surplus_append (ts us : List Token) :
    surplus (ts ++ us) = surplus ts + surplus us := by
  induction ts with
  | nil => simp
  | cons t ts ih => rw [List.cons_append, surplus_cons, surplus_cons, ih, Int.add_assoc]

theorem closing_of_other {k : Kind} (left : k ≠ .leftBrace) (right : k ≠ .rightBrace) :
    k.closing = 0 := by
  rw [Kind.closing, if_neg right, if_neg left]

structure Balanced (ts : List Token) : Prop where
  never : ∀ us, us <+: ts → surplus us ≤ 0
  settled : surplus ts = 0

instance (ts : List Token) : Decidable (Balanced ts) :=
  decidable_of_iff ((∀ n < ts.length + 1, surplus (ts.take n) ≤ 0) ∧ surplus ts = 0) <| by
    constructor
    · rintro ⟨never, settled⟩
      refine ⟨?_, settled⟩
      intro us front
      rw [List.prefix_iff_eq_take.1 front]
      exact never us.length (Nat.lt_succ_of_le front.length_le)
    · rintro ⟨never, settled⟩
      exact ⟨fun n _ => never _ (List.take_prefix n ts), settled⟩

/-- What may be left of a balanced list: it never opens more than it closes. -/
def Closing (ts : List Token) : Prop := ∀ us, us <:+ ts → 0 ≤ surplus us

theorem Closing.of_suffix {ts us : List Token} (closing : Closing ts) (left : us <:+ ts) :
    Closing us :=
  fun vs inner => closing vs (inner.trans left)

theorem Closing.surplus {ts : List Token} (closing : Closing ts) : 0 ≤ surplus ts :=
  closing ts (List.suffix_refl ts)

theorem Balanced.closing {ts : List Token} (balanced : Balanced ts) : Closing ts := by
  rintro us ⟨before, rfl⟩
  have early := balanced.never before (List.prefix_append before us)
  have whole := balanced.settled
  rw [surplus_append] at whole
  omega

/-- From the one list to the other, with at least so many braces open all the way. -/
inductive Above (level : Int) : List Token → List Token → Prop where
  | here {ts : List Token} (high : level ≤ surplus ts) : Above level ts ts
  | drop {t : Token} {ts us : List Token} (high : level ≤ surplus (t :: ts))
      (further : Above level ts us) : Above level (t :: ts) us

namespace Above

variable {level : Int} {ts us vs : List Token}

theorem suffix (above : Above level ts us) : us <:+ ts := by
  induction above with
  | here _ => exact List.suffix_refl _
  | drop _ _ ih => exact ih.trans (List.suffix_cons _ _)

theorem trans (first : Above level ts us) (second : Above level us vs) : Above level ts vs := by
  induction first with
  | here _ => exact second
  | drop high _ ih => exact .drop high (ih second)

theorem mono {lower : Int} (above : Above level ts us) (le : lower ≤ level) :
    Above lower ts us := by
  induction above with
  | here high => exact .here (by omega)
  | drop high _ ih => exact .drop (by omega) ih

theorem between (above : Above level ts us) (late : us <:+ vs) (early : vs <:+ ts) :
    level ≤ surplus vs := by
  induction above with
  | here high =>
    rw [early.eq_of_length_le late.length_le]
    exact high
  | drop high _ ih =>
    rcases List.suffix_cons_iff.1 early with rfl | inner
    · exact high
    · exact ih late inner

end Above

/-- A brace that is open is closed further on, by the first token behind which it no longer is. -/
theorem closing_exists (level : Int) (positive : 0 < level) {ts : List Token}
    (opened : level ≤ surplus ts) :
    ∃ inside close after, ts = inside ++ close :: after ∧ close.kind = .rightBrace ∧
      surplus after = level - 1 ∧ Above level ts (close :: after) := by
  induction ts with
  | nil =>
    rw [surplus_nil] at opened
    omega
  | cons t ts ih =>
    by_cases later : level ≤ surplus ts
    · obtain ⟨inside, close, after, rfl, brace, below, above⟩ := ih later
      exact ⟨t :: inside, close, after, rfl, brace, below, .drop opened above⟩
    · have here := opened
      rw [surplus_cons] at here
      have brace : t.kind = .rightBrace := by
        by_cases right : t.kind = .rightBrace
        · exact right
        · by_cases left : t.kind = .leftBrace
          · rw [left, show Kind.closing .leftBrace = -1 from rfl] at here
            omega
          · rw [closing_of_other left right] at here
            omega
      rw [brace, show Kind.closing .rightBrace = 1 from rfl] at here
      exact ⟨[], t, ts, rfl, brace, by omega, .here opened⟩

theorem tail_of_shorter_suffix {t : Token} {ts us : List Token} (left : us <:+ t :: ts)
    (shorter : us ≠ t :: ts) : us <:+ ts :=
  (List.suffix_cons_iff.1 left).resolve_left shorter

theorem closing_unique {level : Int} {ts us vs : List Token} {first second : Token}
    (one : Above level ts (first :: us)) (other : Above level ts (second :: vs))
    (below : surplus us < level) (belowToo : surplus vs < level) : first :: us = second :: vs := by
  by_cases same : first :: us = second :: vs
  · exact same
  · rcases List.suffix_or_suffix_of_suffix one.suffix other.suffix with inner | inner
    · have high := one.between (tail_of_shorter_suffix inner same)
        ((List.suffix_cons _ _).trans other.suffix)
      omega
    · have high := other.between (tail_of_shorter_suffix inner (Ne.symm same))
        ((List.suffix_cons _ _).trans one.suffix)
      omega

theorem balanced_inside {level : Int} {inside after : List Token} {close : Token}
    (above : Above level (inside ++ close :: after) (close :: after))
    (opened : surplus (inside ++ close :: after) = level)
    (closed : surplus (close :: after) = level) : Balanced inside := by
  constructor
  · rintro us ⟨later, rfl⟩
    have high : level ≤ surplus (later ++ close :: after) := by
      apply above.between (List.suffix_append _ _)
      rw [List.append_assoc]
      exact List.suffix_append _ _
    simp only [surplus_append, surplus_cons] at high opened closed ⊢
    omega
  · simp only [surplus_append, surplus_cons] at opened closed
    omega

end PrattFrontEnd
