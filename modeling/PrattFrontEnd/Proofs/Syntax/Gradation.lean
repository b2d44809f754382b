import Mathlib.Algebra.Group.Nat.Defs
import PrattFrontEnd.Precedence
import PrattFrontEnd.Syntax.Tree
import PrattFrontEnd.Text.Numeral

/-!
Chains of operators between operands of one token, and the tree that a chain stands for when every
kind of operator has a strength: at each operator, those to its left bind as tightly at least, and
those to its right bind tighter. Main statement: `Graded.unique`, there is one such tree at most.
-/
namespace PrattFrontEnd

inductive Atom : Token → Expr → Prop where
  | name {t : Token} (kind : t.kind = .identifier) : Atom t (.name ⟨t, t.text⟩)
  | integer {t : Token} (kind : t.kind = .integer)
      (digits : t.text.toList ≠ [] ∧ t.text.toList.all Char.isDigit)
      (bound : Text.digitsValue t.text.toList ≤ 2 ^ 63 - 1) :
      Atom t (.integer t (Text.digitsValue t.text.toList))
  | string {t : Token} (kind : t.kind = .string) : Atom t (.string t t.text)
  | yes {t : Token} (kind : t.kind = .trueWord) : Atom t (.boolean t true)
  | no {t : Token} (kind : t.kind = .falseWord) : Atom t (.boolean t false)

theorem Atom.unique {t : Token} {e f : Expr} (atom : Atom t e) (other : Atom t f) : e = f := by
  cases atom with
  | _ kind => cases other with
    | _ kindToo => first | rfl | cases kind.symm.trans kindToo

structure Link where
  operator : Token
  operand : Token

def Link.tokens (l : Link) : List Token := [l.operator, l.operand]

structure Chain (kinds : List Kind) (first : Token) (links : List Link) : Prop where
  starts : ∃ e, Atom first e
  goes : ∀ l ∈ links, l.operator.kind ∈ kinds ∧ ∃ e, Atom l.operand e

/-- The tree reads as the chain from left to right, and at each of its operators the strengths of the
others are in order. -/
inductive Graded (strength : Kind → Precedence) : Expr → Token → List Link → Prop where
  | atom {e : Expr} {t : Token} (atom : Atom t e) : Graded strength e t []
  | binary {a b : Expr} {first : Token} {before after : List Link} (link : Link)
      (left : Graded strength a first before) (right : Graded strength b link.operand after)
      (before_binds : ∀ l ∈ before, strength link.operator.kind ≤ strength l.operator.kind)
      (after_binds : ∀ l ∈ after, strength link.operator.kind < strength l.operator.kind) :
      Graded strength (.binary link.operator a link.operator.text b) first (before ++ link :: after)

theorem sides_of_append_cons {before after front back : List Link} {l m : Link}
    (same : before ++ l :: after = front ++ m :: back) :
    (before = front ∧ l = m ∧ after = back) ∨ (m ∈ after ∧ l ∈ front) ∨ (m ∈ before ∧ l ∈ back) := by
  rcases List.append_eq_append_iff.1 same with ⟨between, left, right⟩ | ⟨between, left, right⟩
  · cases between with
    | nil =>
      cases right
      exact .inl ⟨(left.trans (List.append_nil _)).symm, rfl, rfl⟩
    | cons n between =>
      cases right
      refine .inr (.inl ⟨List.mem_append_right _ List.mem_cons_self, ?_⟩)
      rw [left]
      exact List.mem_append_right _ List.mem_cons_self
  · cases between with
    | nil =>
      cases right
      exact .inl ⟨left.trans (List.append_nil _), rfl, rfl⟩
    | cons n between =>
      cases right
      refine .inr (.inr ⟨?_, List.mem_append_right _ List.mem_cons_self⟩)
      rw [left]
      exact List.mem_append_right _ List.mem_cons_self

/-- A chain stands for one tree: of two operators that could be at the root, each would be on one side
of the other, and only one can bind tighter. -/
theorem Graded.unique {strength : Kind → Precedence} {e f : Expr} {first : Token}
    {links : List Link} (graded : Graded strength e first links)
    (other : Graded strength f first links) : e = f := by
  induction graded generalizing f with
  | atom atom =>
    generalize whole : ([] : List Link) = links at other
    cases other with
    | atom atomToo => exact atom.unique atomToo
    | binary => exact absurd whole.symm (List.append_ne_nil_of_right_ne_nil _ (List.cons_ne_nil _ _))
  | @binary a b first before after link _ _ before_binds after_binds ihLeft ihRight =>
    generalize whole : before ++ link :: after = links at other
    cases other with
    | atom => exact absurd whole (List.append_ne_nil_of_right_ne_nil _ (List.cons_ne_nil _ _))
    | @binary c d _ front back root left right front_binds back_binds =>
      rcases sides_of_append_cons whole with
        ⟨rfl, rfl, rfl⟩ | ⟨behind, ahead⟩ | ⟨ahead, behind⟩
      · rw [ihLeft left, ihRight right]
      · exact absurd (after_binds root behind) (Nat.not_lt.2 (front_binds link ahead))
      · exact absurd (back_binds link behind) (Nat.not_lt.2 (before_binds root ahead))

end PrattFrontEnd
