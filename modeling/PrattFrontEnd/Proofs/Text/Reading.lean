import Mathlib
import PrattFrontEnd.Text.Quoted

/-!
Texts that can be read back from the front of a longer text: codes of single values, hexadecimal
numbers of a fixed width, decimal numbers that something else follows, and quoted texts. Main
statements: `PrefixFree.flatMap`, `decimal_reads`, `quoted_injective` and `newline_not_mem_quoted`.
-/
namespace PrattFrontEnd.Text

/-- Values that can be told from the front of a text that starts with the code of one of them. -/
def PrefixFree {α : Type} (code : α → List Char) : Prop :=
  ∀ a b s t, code a ++ s = code b ++ t → a = b ∧ s = t

section Codes

variable {α : Type} {code : α → List Char}

theorem PrefixFree.of_reader {read : List Char → Option (α × List Char)}
    (reads : ∀ a s, read (code a ++ s) = some (a, s)) : PrefixFree code := by
  intro a b s t same
  have first := reads a s
  rw [same, reads b t, Option.some.injEq, Prod.mk.injEq] at first
  exact ⟨first.1.symm, first.2.symm⟩

theorem PrefixFree.flatMap (free : PrefixFree code) {closing : Char}
    (apart : ∀ a s t, code a ++ s ≠ closing :: t) {as bs : List α} {s t : List Char}
    (same : as.flatMap code ++ closing :: s = bs.flatMap code ++ closing :: t) :
    as = bs ∧ s = t := by
  induction as generalizing bs with
  | nil =>
    cases bs with
    | nil => exact ⟨rfl, (List.cons.inj same).2⟩
    | cons b bs =>
      rw [List.flatMap_cons, List.append_assoc] at same
      exact absurd same.symm (apart b _ _)
  | cons a as ih =>
    cases bs with
    | nil =>
      rw [List.flatMap_cons, List.append_assoc] at same
      exact absurd same (apart a _ _)
    | cons b bs =>
      rw [List.flatMap_cons, List.flatMap_cons, List.append_assoc, List.append_assoc] at same
      obtain ⟨first, others⟩ := free a b _ _ same
      obtain ⟨rest, behind⟩ := ih others
      exact ⟨by rw [first, rest], behind⟩

end Codes

theorem head_stops {p : Char → Bool} {c : Char} (stops : p c = false) (text : List Char) :
    ∀ d ∈ (c :: text).head?, p d = false := by
  intro d front
  rwa [← Option.some.inj front]

theorem run_unique {p : Char → Bool} {front other s t : List Char} (all : ∀ c ∈ front, p c = true)
    (allToo : ∀ c ∈ other, p c = true) (ends : ∀ c ∈ s.head?, p c = false)
    (endsToo : ∀ c ∈ t.head?, p c = false) (same : front ++ s = other ++ t) :
    front = other ∧ s = t := by
  have stopped {u : List Char} (stops : ∀ c ∈ u.head?, p c = false) : u.takeWhile p = [] := by
    cases u with
    | nil => rfl
    | cons c cs => exact List.takeWhile_cons_of_neg (by simp [stops c rfl])
  have runs := congrArg (List.takeWhile p) same
  rw [List.takeWhile_append_of_pos all, List.takeWhile_append_of_pos allToo, stopped ends,
    stopped endsToo, List.append_nil, List.append_nil] at runs
  subst runs
  exact ⟨rfl, List.append_cancel_left same⟩

section Hexadecimal

theorem length_hex (width n : Nat) : (hex width n).length = width := by
  induction width generalizing n with
  | zero => rfl
  | succ width ih => rw [hex, List.length_append, ih, List.length_singleton]

def hexValue (c : Char) : Nat := if c.toNat < 97 then c.toNat - 48 else c.toNat - 87

theorem hexValue_hexDigit : ∀ n < 16, hexValue (hexDigit n) = n := by
  decide

def hexNumber (digits : List Char) : Nat := digits.foldl (fun n c => 16 * n + hexValue c) 0

theorem hexNumber_hex {width n : Nat} (fits : n < 16 ^ width) : hexNumber (hex width n) = n := by
  induction width generalizing n with
  | zero =>
    rw [Nat.pow_zero, Nat.lt_one_iff] at fits
    rw [fits]
    rfl
  | succ width ih =>
    have front : hexNumber (hex width (n / 16)) = n / 16 := by
      apply ih
      rw [Nat.pow_succ] at fits
      omega
    rw [hexNumber] at front
    rw [hex, hexNumber, List.foldl_append, front, List.foldl_cons, List.foldl_nil,
      hexValue_hexDigit _ (Nat.mod_lt n (by decide))]
    omega

theorem take_hex (width n : Nat) (s : List Char) : (hex width n ++ s).take width = hex width n :=
  List.take_left' (length_hex width n)

theorem drop_hex (width n : Nat) (s : List Char) : (hex width n ++ s).drop width = s :=
  List.drop_left' (length_hex width n)

end Hexadecimal

section Decimal

def decimal (c : Char) : Bool := c = '-' || c.isDigit

theorem decimal_toString (n : Int) : ∀ c ∈ (toString n).toList, decimal c = true := by
  have digits (m : Nat) : ∀ c ∈ m.repr.toList, decimal c = true := by
    intro c member
    rw [Nat.repr_eq_ofList_toDigits, String.toList_ofList] at member
    have digit := Nat.isDigit_of_mem_toDigits (by decide) (by decide) member
    rw [decimal, digit, Bool.or_true]
  rw [Int.toString_eq_repr, Int.repr_eq_if]
  split
  · exact digits _
  · intro c member
    rw [String.toList_append] at member
    rcases List.mem_append.1 member with sign | digit
    · rw [List.mem_singleton.1 sign]
      rfl
    · exact digits _ c digit

theorem toString_starts (n : Int) : ∃ c cs, (toString n).toList = c :: cs ∧ decimal c = true := by
  have some : (toString n).toList ≠ [] := by
    rw [Int.toString_eq_repr, Int.repr_eq_if]
    split
    · exact fun none => Nat.repr_ne_empty (String.toList_eq_nil_iff.1 none)
    · exact fun none => by simp at none
  obtain ⟨c, cs, shown⟩ := List.exists_cons_of_ne_nil some
  have all := decimal_toString n
  rw [shown, List.forall_mem_cons] at all
  exact ⟨c, cs, shown, all.1⟩

theorem decimal_reads {m n : Int} {s t : List Char} (ends : ∀ c ∈ s.head?, decimal c = false)
    (endsToo : ∀ c ∈ t.head?, decimal c = false)
    (same : (toString m).toList ++ s = (toString n).toList ++ t) : m = n ∧ s = t := by
  obtain ⟨numbers, behind⟩ :=
    run_unique (decimal_toString m) (decimal_toString n) ends endsToo same
  rw [String.toList_inj, Int.toString_eq_repr, Int.toString_eq_repr] at numbers
  exact ⟨Int.repr_injective numbers, behind⟩

end Decimal

section Quoted

def unquotedChar? : List Char → Option (Char × List Char)
  | '\\' :: 'n' :: rest => some ('\n', rest)
  | '\\' :: 'r' :: rest => some ('\r', rest)
  | '\\' :: 't' :: rest => some ('\t', rest)
  | '\\' :: 'x' :: rest => some (Char.ofNat (hexNumber (rest.take 2)), rest.drop 2)
  | '\\' :: 'u' :: rest => some (Char.ofNat (hexNumber (rest.take 4)), rest.drop 4)
  | '\\' :: 'U' :: rest => some (Char.ofNat (hexNumber (rest.take 8)), rest.drop 8)
  | '\\' :: c :: rest => some (c, rest)
  | c :: rest => some (c, rest)
  | [] => none

def IsQuote (q : Char) : Prop := q = '"' ∨ q = '\''

theorem isQuote_quoteFor (text : List Char) : IsQuote (quoteFor text) := by
  unfold quoteFor
  split
  · exact Or.inl rfl
  · exact Or.inr rfl

theorem unquotedChar?_plain {c : Char} (plain : c ≠ '\\') (s : List Char) :
    unquotedChar? (c :: s) = some (c, s) := by
  unfold unquotedChar?
  split <;> simp_all

theorem ofNat_hexNumber_hex {width : Nat} {c : Char} (fits : c.toNat < 16 ^ width) :
    Char.ofNat (hexNumber (hex width c.toNat)) = c := by
  rw [hexNumber_hex fits, Char.ofNat_toNat]

theorem unquotedChar?_quotedChar {q : Char} (quote : IsQuote q) (c : Char) (s : List Char) :
    unquotedChar? (quotedChar q c ++ s) = some (c, s) := by
  have small : c.toNat < 16 ^ 8 := c.val.toNat_lt
  unfold quotedChar
  split
  next special =>
    rw [Bool.or_eq_true, decide_eq_true_eq, decide_eq_true_eq] at special
    rcases special with rfl | rfl
    · rcases quote with rfl | rfl <;> rfl
    · rfl
  next ordinary =>
    rw [Bool.or_eq_true, decide_eq_true_eq, decide_eq_true_eq, not_or] at ordinary
    split
    next feed => rw [feed]; rfl
    split
    next feed => rw [feed]; rfl
    split
    next tab => rw [tab]; rfl
    split
    · exact unquotedChar?_plain ordinary.2 s
    -- the three widths of escapes
    split
    next fits =>
      rw [List.cons_append, List.cons_append, unquotedChar?, take_hex, drop_hex,
        ofNat_hexNumber_hex fits]
    split
    next fits =>
      rw [List.cons_append, List.cons_append, unquotedChar?, take_hex, drop_hex,
        ofNat_hexNumber_hex fits]
    · rw [List.cons_append, List.cons_append, unquotedChar?, take_hex, drop_hex,
        ofNat_hexNumber_hex small]

theorem quotedChar_apart {q : Char} (quote : IsQuote q) (c : Char) (s t : List Char) :
    quotedChar q c ++ s ≠ q :: t := by
  have escaped (more : List Char) : '\\' :: more ++ s ≠ q :: t := by
    intro same
    rcases quote with rfl | rfl <;> cases same
  unfold quotedChar
  split
  · exact escaped _
  next ordinary =>
    rw [Bool.or_eq_true, decide_eq_true_eq, decide_eq_true_eq, not_or] at ordinary
    split
    · exact escaped _
    split
    · exact escaped _
    split
    · exact escaped _
    split
    · exact fun same => ordinary.1 (List.cons.inj same).1
    split
    · exact escaped _
    split <;> exact escaped _

theorem newline_not_mem_hex (width n : Nat) : '\n' ∉ hex width n := by
  have digits : ∀ n < 16, hexDigit n ≠ '\n' := by decide
  induction width generalizing n with
  | zero => exact List.not_mem_nil
  | succ width ih =>
    rw [hex, List.mem_append, List.mem_singleton, not_or]
    exact ⟨ih _, (digits _ (Nat.mod_lt n (by decide))).symm⟩

theorem newline_not_mem_quotedChar {q : Char} (quote : IsQuote q) (c : Char) :
    '\n' ∉ quotedChar q c := by
  have escaped {d : Char} (plain : '\n' ≠ d) {more : List Char} (inside : '\n' ∉ more) :
      '\n' ∉ '\\' :: d :: more := by
    rw [List.mem_cons, List.mem_cons, not_or, not_or]
    exact ⟨by decide, plain, inside⟩
  unfold quotedChar
  split
  next special =>
    rw [Bool.or_eq_true, decide_eq_true_eq, decide_eq_true_eq] at special
    refine escaped ?_ List.not_mem_nil
    rcases special with rfl | rfl
    · rcases quote with rfl | rfl <;> decide
    · decide
  split
  · decide
  split
  · decide
  split
  · decide
  split
  next shown =>
    rw [List.mem_singleton]
    rintro rfl
    exact absurd shown (by decide)
  split
  · exact escaped (by decide) (newline_not_mem_hex _ _)
  split <;> exact escaped (by decide) (newline_not_mem_hex _ _)

theorem newline_not_mem_quoted (text : String) : '\n' ∉ (quoted text).toList := by
  have quote := isQuote_quoteFor text.toList
  have mark : '\n' ≠ quoteFor text.toList := by
    rcases quote with same | same <;> rw [same] <;> decide
  rw [quoted, String.toList_ofList, quotedChars, List.cons_append, List.mem_cons, List.mem_append,
    List.mem_singleton, List.mem_flatMap]
  rintro (same | ⟨c, -, inside⟩ | same)
  · exact mark same
  · exact newline_not_mem_quotedChar quote c inside
  · exact mark same

/-- A text is read back from between its quotes. -/
theorem quoted_injective {text other : String} (same : quoted text = quoted other) :
    text = other := by
  rw [quoted, quoted, String.ofList_inj, quotedChars, quotedChars, List.cons_append,
    List.cons_append, List.cons.injEq] at same
  obtain ⟨marks, inside⟩ := same
  rw [← marks] at inside
  have quote := isQuote_quoteFor text.toList
  have free : PrefixFree (quotedChar (quoteFor text.toList)) :=
    PrefixFree.of_reader (unquotedChar?_quotedChar quote)
  exact String.toList_inj.1 (free.flatMap (quotedChar_apart quote) inside).1

end Quoted

end PrattFrontEnd.Text
