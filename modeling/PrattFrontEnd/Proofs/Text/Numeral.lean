import Mathlib.Data.Nat.Digits.Defs
import PrattFrontEnd.Parser.Expression

/-!
Integer literals. The parser gives up on a literal by its length before it computes a value; main
statements: `integerValue?_eq_some_iff`, this makes no difference to the values it accepts, and
`Text.eq_of_digitsValue_eq`, a value has one numeral without leading zeros.
-/
namespace PrattFrontEnd

namespace Text

theorem foldl_digits_ge (n : Nat) (digits : List Char) :
    n * 10 ^ digits.length ≤ digits.foldl (fun m c => 10 * m + (c.toNat - 48)) n := by
  induction digits generalizing n with
  | nil => simp
  | cons c cs ih =>
    have rest := ih (10 * n + (c.toNat - 48))
    have grown : 10 * n * 10 ^ cs.length ≤ (10 * n + (c.toNat - 48)) * 10 ^ cs.length :=
      Nat.mul_le_mul_right _ (Nat.le_add_right _ _)
    have shifted : n * 10 ^ (cs.length + 1) = 10 * n * 10 ^ cs.length := by
      rw [Nat.pow_succ, Nat.mul_comm _ 10, ← Nat.mul_assoc, Nat.mul_comm n 10]
    rw [List.length_cons, List.foldl_cons, shifted]
    exact Nat.le_trans grown rest

theorem digitsValue_dropWhile (digits : List Char) :
    digitsValue (digits.dropWhile (· = '0')) = digitsValue digits := by
  induction digits with
  | nil => rfl
  | cons c cs ih =>
    by_cases zero : c = '0'
    · subst zero
      rw [List.dropWhile_cons_of_pos (by simp), ih]
      rfl
    · rw [List.dropWhile_cons_of_neg (by simpa using zero)]

theorem digit_bounds {c : Char} (digit : c.isDigit = true) : 48 ≤ c.toNat ∧ c.toNat ≤ 57 := by
  simp only [Char.isDigit, Bool.and_eq_true, decide_eq_true_eq, ge_iff_le,
    UInt32.le_iff_toNat_le] at digit
  exact digit

theorem one_le_of_digit {c : Char} (digit : c.isDigit = true) (nonzero : c ≠ '0') :
    1 ≤ c.toNat - 48 := by
  have bounds := digit_bounds digit
  have other : c.toNat ≠ 48 := by
    intro same
    exact nonzero (Char.ext (UInt32.toNat_inj.1 same))
  omega

theorem significant_le {digits : List Char} (all : digits.all Char.isDigit = true)
    (small : digitsValue digits < 10 ^ 19) : (digits.dropWhile (· = '0')).length ≤ 19 := by
  rw [← digitsValue_dropWhile] at small
  cases shape : digits.dropWhile (· = '0') with
  | nil => simp
  | cons c cs =>
    have nonzero : c ≠ '0' := by
      intro zero
      have front := List.head?_dropWhile_not (fun c : Char => decide (c = '0')) digits
      rw [shape] at front
      simp [zero] at front
    have member : c ∈ digits :=
      (List.dropWhile_sublist _).subset (shape ▸ List.mem_cons_self)
    have first := one_le_of_digit (List.all_eq_true.1 all c member) nonzero
    have large : 10 ^ cs.length ≤ digitsValue (c :: cs) := by
      have scaled : 1 * 10 ^ cs.length ≤ (10 * 0 + (c.toNat - 48)) * 10 ^ cs.length :=
        Nat.mul_le_mul_right _ (by omega)
      rw [Nat.one_mul] at scaled
      exact Nat.le_trans scaled (foldl_digits_ge _ cs)
    rw [shape] at small
    have short : cs.length < 19 :=
      (Nat.pow_lt_pow_iff_right (by decide)).1 (Nat.lt_of_le_of_lt large small)
    rw [List.length_cons]
    omega

def digitNumbers (digits : List Char) : List Nat := digits.map fun c => c.toNat - 48

theorem digitsValue_eq_ofDigits (digits : List Char) :
    digitsValue digits = Nat.ofDigits 10 (digitNumbers digits).reverse := by
  rw [digitNumbers, Nat.ofDigits_eq_foldr, List.foldr_reverse, List.foldl_map, digitsValue]
  simp only [Nat.add_comm, Nat.cast_id]

theorem digitNumbers_injective {digits others : List Char} (all : digits.all Char.isDigit = true)
    (allToo : others.all Char.isDigit = true) (same : digitNumbers digits = digitNumbers others) :
    digits = others := by
  induction digits generalizing others with
  | nil => exact (List.map_eq_nil_iff.1 same.symm).symm
  | cons c cs ih =>
    cases others with
    | nil => cases same
    | cons d ds =>
      rw [List.all_cons, Bool.and_eq_true] at all allToo
      obtain ⟨first, further⟩ := List.cons.inj same
      have numbers : c.toNat - 48 = d.toNat - 48 := first
      have codes : c.toNat = d.toNat := by
        have bounds := digit_bounds all.1
        have boundsToo := digit_bounds allToo.1
        omega
      have char : c = d := Char.ext (UInt32.toNat_inj.1 codes)
      rw [char, ih all.2 allToo.2 further]

/-- Digits behind a leading zero. -/
def padded : List Char → Bool
  | '0' :: _ :: _ => true
  | _ => false

theorem significant_of_not_padded {digits : List Char} (some : digits ≠ [])
    (plain : padded digits = false) :
    digits = ['0'] ∨ ∃ c cs, digits = c :: cs ∧ c ≠ '0' := by
  unfold padded at plain
  split at plain
  · cases plain
  · rename_i other
    obtain ⟨c, cs, rfl⟩ := List.exists_cons_of_ne_nil some
    by_cases zero : c = '0'
    · subst zero
      cases cs with
      | nil => exact Or.inl rfl
      | cons d ds => exact absurd rfl (other d ds)
    · exact Or.inr ⟨c, cs, rfl, zero⟩

theorem digits_digitsValue {c : Char} {cs : List Char} (all : (c :: cs).all Char.isDigit = true)
    (nonzero : c ≠ '0') : (Nat.digits 10 (digitsValue (c :: cs))).reverse = digitNumbers (c :: cs) := by
  rw [digitsValue_eq_ofDigits, Nat.digits_ofDigits 10 (by decide), List.reverse_reverse]
  · intro n member
    obtain ⟨d, inside, rfl⟩ := List.mem_map.1 (List.mem_reverse.1 member)
    have bounds := digit_bounds (List.all_eq_true.1 all d inside)
    omega
  · intro _
    have first := one_le_of_digit (List.all_eq_true.1 all c List.mem_cons_self) nonzero
    rw [List.getLast_reverse]
    simp only [digitNumbers, List.map_cons, List.head_cons]
    omega

theorem eq_of_digitsValue_eq {digits others : List Char} (some : digits ≠ [])
    (all : digits.all Char.isDigit = true) (plain : padded digits = false) (someToo : others ≠ [])
    (allToo : others.all Char.isDigit = true) (plainToo : padded others = false)
    (same : digitsValue digits = digitsValue others) : digits = others := by
  have positive {c : Char} {cs : List Char} (all : (c :: cs).all Char.isDigit = true)
      (nonzero : c ≠ '0') : digitsValue ['0'] ≠ digitsValue (c :: cs) := by
    intro zero
    have listed := digits_digitsValue all nonzero
    rw [← zero] at listed
    cases listed
  rcases significant_of_not_padded some plain with rfl | ⟨c, cs, rfl, nonzero⟩
  · rcases significant_of_not_padded someToo plainToo with rfl | ⟨d, ds, rfl, nonzeroToo⟩
    · rfl
    · exact absurd same (positive allToo nonzeroToo)
  · rcases significant_of_not_padded someToo plainToo with rfl | ⟨d, ds, rfl, nonzeroToo⟩
    · exact absurd same.symm (positive all nonzero)
    · apply digitNumbers_injective all allToo
      rw [← digits_digitsValue all nonzero, ← digits_digitsValue allToo nonzeroToo, same]

end Text

theorem Expression.integerValue?_eq_some_iff {literal : String} {value : Nat} :
    integerValue? literal = some value ↔
      (literal.toList ≠ [] ∧ literal.toList.all Char.isDigit) ∧
        Text.digitsValue literal.toList ≤ 2 ^ 63 - 1 ∧
        value = Text.digitsValue literal.toList := by
  have largest : maxInteger = 2 ^ 63 - 1 := rfl
  have room : 2 ^ 63 - 1 < 10 ^ 19 := by decide
  simp only [integerValue?]
  by_cases numeral : literal.toList ≠ [] ∧ literal.toList.all Char.isDigit
  · by_cases fits : Text.digitsValue literal.toList ≤ 2 ^ 63 - 1
    · have short := Text.significant_le numeral.2 (Nat.lt_of_le_of_lt fits room)
      rw [if_neg (Nat.not_lt.2 short), Text.natural?, if_pos numeral, largest,
        Option.filter_some_pos (by simpa using fits)]
      constructor
      · intro same
        exact ⟨numeral, fits, (Option.some.inj same).symm⟩
      · rintro ⟨_, _, rfl⟩
        rfl
    · rw [Text.natural?, if_pos numeral, largest, Option.filter_some_neg (by simpa using fits)]
      simp only [ite_self, reduceCtorEq, fits, false_and, and_false]
  · rw [Text.natural?, if_neg numeral, Option.filter_none]
    simp only [ite_self, reduceCtorEq, false_iff]
    exact fun all => numeral all.1

end PrattFrontEnd
