import PrattFrontEnd.Proofs.Grammar.Soundness
import PrattFrontEnd.Proofs.Rendering.Lexemes

/-!
The tokens in the window of a parser over a source text have been read from it, whatever the parser
does. What reading a lexeme can come to says what the text of such a token looks like. Main statement:
`Parser.Reading.of_reaches`.
-/
namespace PrattFrontEnd

open Rule Expression Statement PrattFrontEnd.Parser

namespace Lexeme

inductive Form (l : Lexeme) : Prop where
  | word (text : String) (shown : l = Lexeme.word text)
  | integer (kind : l.kind = .integer)
  | string (kind : l.kind = .string)
  | illegal (kind : l.kind = .illegal)
  | operator (member : l.kind ∈ Kind.operators) (shown : l.value = l.kind.name.toList)

theorem spelled_of_readOperator? {text rest : List Char} {l : Lexeme}
    (found : readOperator? text = some (l, rest)) :
    l.kind ∈ Kind.operators ∧ l.value = l.kind.name.toList := by
  have spelled {spelling : List Char} {k : Kind} (known : Kind.ofOperator? spelling = some k) :
      k ∈ Kind.operators ∧ spelling = k.name.toList :=
    ⟨Kind.mem_operators_of_ofOperator? known, (Kind.toList_name_of_ofOperator? known).symm⟩
  unfold readOperator? at found
  split at found
  · cases found
  · obtain ⟨kind, known, same⟩ := Option.map_eq_some_iff.1 found
    cases same
    exact spelled known
  · split at found
    · rename_i known
      cases found
      exact spelled known
    · obtain ⟨kind, known, same⟩ := Option.map_eq_some_iff.1 found
      cases same
      exact spelled known

theorem form_of_read (c : Char) (cs : List Char) : (read c cs).1.Form := by
  unfold read
  split
  · exact .word (String.ofList (c :: cs.takeWhile continuesWord)) (by simp [word])
  · split
    · exact .integer rfl
    · split
      · unfold readString
        split
        · exact .string rfl
        · exact .illegal rfl
      · cases found : readOperator? (c :: cs) with
        | none => exact .illegal rfl
        | some result =>
          obtain ⟨member, shown⟩ := spelled_of_readOperator? found
          exact .operator member shown

end Lexeme

theorem Kind.not_operator_ofWord (text : String) : Kind.ofWord text ∉ Kind.operators := by
  unfold Kind.ofWord
  split <;> decide

theorem Kind.ofWord_injective {text keyword : String} (member : keyword ∈ Lexeme.keywords)
    (same : Kind.ofWord text = Kind.ofWord keyword) : text = keyword := by
  simp only [Lexeme.keywords, List.mem_cons, List.not_mem_nil, or_false] at member
  rcases member with rfl | rfl | rfl | rfl | rfl | rfl | rfl <;>
    unfold Kind.ofWord at same <;> split at same <;> first | rfl | cases same

theorem Kind.operatorLevel?_of_binary {k : Kind}
    (ruled : RuleTable.standard.continuation k = some .binary) : k.operatorLevel?.isSome := by
  cases k <;> first | rfl | cases ruled

def Token.Read (t : Token) : Prop := t.kind = .eof ∨ ∃ c cs, (Lexeme.read c cs).1 = t.lexeme

namespace Token.Read

variable {t : Token}

theorem form (read : t.Read) (more : t.kind ≠ .eof) : t.lexeme.Form := by
  rcases read with ended | ⟨c, cs, same⟩
  · exact absurd ended more
  · rw [← same]
    exact Lexeme.form_of_read c cs

theorem operator (read : t.Read) (member : t.kind ∈ Kind.operators) : t.text = t.kind.name := by
  have more : t.kind ≠ .eof := by
    intro ended
    rw [ended] at member
    exact absurd member (by decide)
  cases read.form more with
  | word text shown =>
    have kind : t.kind = Kind.ofWord text := congrArg Lexeme.kind shown
    rw [kind] at member
    exact absurd member (Kind.not_operator_ofWord text)
  | operator _ shown => exact String.toList_inj.1 shown
  | integer kind | string kind | illegal kind =>
    have same : t.kind = _ := kind
    rw [same] at member
    exact absurd member (by decide)

theorem unary (read : t.Read) (kinds : t.kind ∈ Opening.unary.kinds) : t.text = t.kind.name := by
  simp only [Opening.kinds, List.mem_cons, List.not_mem_nil, or_false] at kinds
  apply read.operator
  rcases kinds with kind | kind <;> rw [kind] <;> decide

theorem keyword (read : t.Read) {text : String} (member : text ∈ Lexeme.keywords)
    (kind : t.kind = Kind.ofWord text) : t.text = text := by
  have more : t.kind ≠ .eof := by
    rw [kind]
    exact Lexeme.ofWord_ne_eof text
  have others : ∀ text ∈ Lexeme.keywords,
      Kind.ofWord text ≠ .integer ∧ Kind.ofWord text ≠ .string ∧ Kind.ofWord text ≠ .illegal := by
    decide
  obtain ⟨noInteger, noString, legal⟩ := others text member
  cases read.form more with
  | word shown same =>
    have kinds : t.kind = Kind.ofWord shown := congrArg Lexeme.kind same
    have texts : t.text = shown := String.toList_inj.1 (congrArg Lexeme.value same)
    rw [texts]
    exact Kind.ofWord_injective member (by rw [← kinds, kind])
  | operator other _ => exact absurd (kind ▸ other) (Kind.not_operator_ofWord text)
  | integer other => exact absurd (kind ▸ other) noInteger
  | string other => exact absurd (kind ▸ other) noString
  | illegal other => exact absurd (kind ▸ other) legal

end Token.Read

theorem Scanner.read_next (s : Scanner) : s.next.1.Read := by
  unfold Scanner.next
  cases split : (Layout.divide false s.rest).2 with
  | nil =>
    simp only [split]
    exact Or.inl rfl
  | cons c cs =>
    simp only [split]
    exact Or.inr ⟨c, cs, by rw [Lexeme.lexeme_toToken]⟩

/-- A parser over a source text, with the rules of the language. -/
structure Parser.Reading (p : Parser) : Prop where
  ready : p.Ready
  source : ∃ s, p.source = .scanner s
  current : p.current.Read
  peek : p.peek.Read

namespace Parser.Reading

variable {p q : Parser}

theorem advance (reading : p.Reading) : p.advance.Reading := by
  obtain ⟨s, source⟩ := reading.source
  refine ⟨reading.ready.of_reaches Reaches.refl.advance, ⟨s.next.2, ?_⟩, reading.peek, ?_⟩
  · rw [advance_source, source]
    rfl
  · rw [advance_peek, source]
    exact s.read_next

theorem of_reaches (reading : p.Reading) (reaches : p.Reaches q) : q.Reading := by
  induction reaches with
  | refl => exact reading
  | advance _ ih => exact ih.advance
  | note event before ih =>
    exact ⟨ih.ready.of_reaches (Reaches.refl.note event), ih.source, ih.current, ih.peek⟩

theorem at_depth (reading : p.Reading) (depth : Nat) : Reading { p with depth } :=
  ⟨reading.ready.at_depth depth, reading.source, reading.current, reading.peek⟩

end Parser.Reading

theorem reading_ofString (source : String) (maxDepth : Int) : (ofString source maxDepth).Reading := by
  have first := (Scanner.ofString source).read_next
  have second := (Scanner.ofString source).next.2.read_next
  exact ⟨ready_onSource _ _, ⟨_, rfl⟩, first, second⟩

end PrattFrontEnd
