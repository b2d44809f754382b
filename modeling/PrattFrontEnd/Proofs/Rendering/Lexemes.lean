import PrattFrontEnd.Proofs.Grammar.Derivation
import PrattFrontEnd.Parser.Expression
import PrattFrontEnd.Proofs.Rendering.Characters
import PrattFrontEnd.Proofs.Scanning.Scans

/-!
The lexemes of a rendering. A legible tree shows nothing that could not have been read from a source
text; its rendering scans as its lexemes, whatever stands behind it. Main statements:
`Expr.scannable`, one lemma a constructor, and `Program.scans`.
-/
namespace PrattFrontEnd

open Lexeme

namespace Lexeme

def sign (c : Char) : Lexeme := ⟨(Kind.ofOperator? [c]).getD .illegal, [c]⟩

def word (text : String) : Lexeme := ⟨Kind.ofWord text, text.toList⟩

def keywords : List String := ["fn", "let", "true", "false", "if", "else", "return"]

theorem legible_operator {k : Kind} (member : k ∈ Kind.operators) :
    Legible ⟨k, k.name.toList⟩ := by
  have read : ∀ k ∈ Kind.operators,
      (read (k.name.toList.headD ' ') k.name.toList.tail).1 = ⟨k, k.name.toList⟩ := by
    decide
  refine ⟨?_, _, _, read k member⟩
  rintro rfl
  exact absurd member (by decide)

theorem legible_sign {c : Char} (known : (Kind.ofOperator? [c]).isSome) : (sign c).Legible := by
  obtain ⟨k, known⟩ := Option.isSome_iff_exists.1 known
  have legible := legible_operator (Kind.mem_operators_of_ofOperator? known)
  rw [Kind.toList_name_of_ofOperator? known] at legible
  rw [sign, known]
  exact legible

theorem legible_word {text : String} (member : text ∈ keywords) : (word text).Legible := by
  have read : ∀ text ∈ keywords,
      (read (text.toList.headD ' ') text.toList.tail).1 = word text := by
    decide
  refine ⟨?_, _, _, read text member⟩
  have legal : ∀ text ∈ keywords, (word text).kind ≠ .illegal := by decide
  exact legal text member

theorem covered_sign (c : Char) : (sign c).covered = [c] := by
  unfold covered
  apply if_neg
  cases known : Kind.ofOperator? [c] with
  | none => simp [sign, known]
  | some k => simp [sign, known, kind_ne_string_of_ofOperator? known]

theorem covered_word (text : String) : (word text).covered = text.toList :=
  if_neg (ofWord_ne_string text)

theorem covered_operator {k : Kind} (member : k ∈ Kind.operators) :
    covered ⟨k, k.name.toList⟩ = k.name.toList := by
  apply if_neg
  rintro rfl
  exact absurd member (by decide)

end Lexeme

theorem Lexeme.not_digit_of_not_continuesWord {c : Char} (other : continuesWord c = false) :
    Text.isDigit c = false := by
  cases digit : Text.isDigit c with
  | false => rfl
  | true => simp [continuesWord, Text.isAlphanumeric_of_isDigit digit] at other

/-- Text that carries no lexeme on, whatever it stands behind. -/
def Breaks (tail : List Char) : Prop := ∀ c ∈ tail.head?, continuesWord c = false ∧ c ≠ '='

theorem breaks_nil : Breaks [] := by
  intro c front
  cases front

theorem breaks_cons {c : Char} {tail : List Char} (word : continuesWord c = false) (other : c ≠ '=') :
    Breaks (c :: tail) := by
  intro d front
  cases front
  exact ⟨word, other⟩

theorem breaks_blank {c : Char} (blank : Layout.isBlank c = true) (tail : List Char) :
    Breaks (c :: tail) := by
  simp only [Layout.isBlank, Bool.or_eq_true, decide_eq_true_eq] at blank
  rcases blank with ((rfl | rfl) | rfl) | rfl <;> exact breaks_cons rfl (by decide)

theorem Breaks.ends {tail : List Char} (breaks : Breaks tail) (l : Lexeme) : l.EndsBefore tail := by
  intro c front
  obtain ⟨word, other⟩ := breaks c front
  have digit := not_digit_of_not_continuesWord word
  obtain ⟨kind, value⟩ := l
  cases kind <;> first | rfl | exact word | exact digit | exact decide_eq_false other

namespace Scans

variable {tail rest : List Char} {ls : List Lexeme}

theorem sign {c : Char} (known : (Kind.ofOperator? [c]).isSome)
    (ends : (Lexeme.sign c).EndsBefore tail) (further : Scans tail ls rest) :
    Scans (c :: tail) (Lexeme.sign c :: ls) rest := by
  have front := Scans.legible (legible_sign known) ends further
  rw [covered_sign] at front
  exact front

theorem word (text : String) (member : text ∈ keywords) (breaks : Breaks tail)
    (further : Scans tail ls rest) : Scans (text.toList ++ tail) (Lexeme.word text :: ls) rest := by
  have front := Scans.legible (legible_word member) (breaks.ends _) further
  rw [covered_word] at front
  exact front

theorem spaced (text : String) (member : text ∈ keywords) (further : Scans tail ls rest) :
    Scans (text.toList ++ ' ' :: tail) (Lexeme.word text :: ls) rest :=
  .word text member (breaks_cons rfl (by decide)) (.blank rfl further)

theorem operator {k : Kind} (member : k ∈ Kind.operators)
    (ends : EndsBefore ⟨k, k.name.toList⟩ tail) (further : Scans tail ls rest) :
    Scans (k.name.toList ++ tail) (⟨k, k.name.toList⟩ :: ls) rest := by
  have front := Scans.legible (legible_operator member) ends further
  rw [covered_operator member] at front
  exact front

end Scans

def Name.lexeme (n : Name) : Lexeme := ⟨.identifier, n.text.toList⟩

def Name.furtherLexemes (names : List Name) : List Lexeme :=
  names.flatMap fun n => [sign ',', n.lexeme]

def Name.listLexemes : List Name → List Lexeme
  | [] => []
  | n :: names => n.lexeme :: Name.furtherLexemes names

mutual

@[simp] def Expr.lexemes : Expr → List Lexeme
  | .bare token => [token.lexeme]
  | .name n => [n.lexeme]
  | .integer token _ => [⟨.integer, token.text.toList⟩]
  | .string _ value => [⟨.string, value.toList⟩]
  | .boolean _ value => [word (if value then "true" else "false")]
  | .unary token operator operand =>
    sign '(' :: ⟨token.kind, operator.toList⟩ :: (operand.lexemes ++ [sign ')'])
  | .binary token left operator right =>
    sign '(' :: (left.lexemes ++ ⟨token.kind, operator.toList⟩ :: (right.lexemes ++ [sign ')']))
  | .conditional _ condition consequence none =>
    word "if" :: (condition.lexemes ++ consequence.lexemes)
  | .conditional _ condition consequence (some alternative) =>
    word "if" :: (condition.lexemes ++ (consequence.lexemes ++ word "else" :: alternative.lexemes))
  | .function _ parameters body =>
    word "fn" :: sign '(' :: (Name.listLexemes parameters ++ sign ')' :: body.lexemes)
  | .call _ callee arguments =>
    callee.lexemes ++ sign '(' :: (Expr.listLexemes arguments ++ [sign ')'])
  | .array _ elements => sign '[' :: (Expr.listLexemes elements ++ [sign ']'])
  | .index _ collection position =>
    sign '(' :: (collection.lexemes ++ sign '[' :: (position.lexemes ++ [sign ']', sign ')']))
termination_by structural e => e

@[simp] def Stmt.lexemes : Stmt → List Lexeme
  | .bare token => [token.lexeme]
  | .binding _ name value =>
    word "let" :: name.lexeme :: sign '=' :: (value.lexemes ++ [sign ';'])
  | .result _ value => word "return" :: (value.lexemes ++ [sign ';'])
  | .expression _ value => value.lexemes
  | .block b => b.lexemes
termination_by structural s => s

@[simp] def Block.lexemes : Block → List Lexeme
  | .mk _ statements => sign '\x7b' :: (Stmt.allLexemes statements ++ [sign '\x7d'])
termination_by structural b => b

def Expr.listLexemes : List Expr → List Lexeme
  | [] => []
  | e :: es => e.lexemes ++ Expr.furtherLexemes es
termination_by structural es => es

def Expr.furtherLexemes : List Expr → List Lexeme
  | [] => []
  | e :: es => sign ',' :: (e.lexemes ++ Expr.furtherLexemes es)
termination_by structural es => es

def Stmt.allLexemes : List Stmt → List Lexeme
  | [] => []
  | s :: ss => s.lexemes ++ Stmt.allLexemes ss
termination_by structural ss => ss

end

def Name.Legible (n : Name) : Prop := n.lexeme.Legible

mutual

/-- A tree that shows only what is read from source texts. -/
@[simp] def Expr.Legible : Expr → Prop
  | .bare _ => False
  | .name n => n.Legible
  | .integer token value =>
    Lexeme.Legible ⟨.integer, token.text.toList⟩ ∧
      ∃ n : Nat, Expression.integerValue? token.text = some n ∧ value = n
  | .string _ value => Lexeme.Legible ⟨.string, value.toList⟩
  | .boolean _ _ => True
  | .unary token operator operand =>
    (token.kind = .bang ∨ token.kind = .minus) ∧ operator = token.kind.name ∧ operand.Legible
  | .binary token left operator right =>
    token.kind.operatorLevel?.isSome ∧ operator = token.kind.name ∧ left.Legible ∧ right.Legible
  | .conditional _ condition consequence none => condition.Legible ∧ consequence.Legible
  | .conditional _ condition consequence (some alternative) =>
    condition.Legible ∧ consequence.Legible ∧ alternative.Legible
  | .function token parameters body =>
    token.text = "fn" ∧ (∀ n ∈ parameters, n.Legible) ∧ body.Legible
  | .call _ callee arguments => callee.Legible ∧ Expr.AllLegible arguments
  | .array _ elements => Expr.AllLegible elements
  | .index _ collection position => collection.Legible ∧ position.Legible
termination_by structural e => e

@[simp] def Stmt.Legible : Stmt → Prop
  | .bare _ | .block _ => False
  | .binding token name value => token.text = "let" ∧ name.Legible ∧ value.Legible
  | .result token value => token.text = "return" ∧ value.Legible
  | .expression _ value => value.Legible
termination_by structural s => s

@[simp] def Block.Legible : Block → Prop
  | .mk _ statements => Stmt.AllLegible statements
termination_by structural b => b

def Expr.AllLegible : List Expr → Prop
  | [] => True
  | e :: es => e.Legible ∧ Expr.AllLegible es
termination_by structural es => es

def Stmt.AllLegible : List Stmt → Prop
  | [] => True
  | s :: ss => s.Legible ∧ Stmt.AllLegible ss
termination_by structural ss => ss

end

/-- The kinds that the rendering of an expression starts with. A prefix operator is not among them:
it stands in parentheses. -/
def Kind.leads (k : Kind) : Bool :=
  k ∈ [.identifier, .integer, .string, .trueWord, .falseWord, .leftParen, .leftBracket, .ifWord,
    .functionWord]

theorem Expr.begins : (e : Expr) → e.Legible →
    ∃ l ls more, e.lexemes = l :: ls ∧ e.characters = l.covered ++ more ∧ l.Legible ∧
      l.kind.leads = true
  | .bare _, legible => by simp at legible
  | .name n, legible => by
    rw [Expr.Legible] at legible
    rw [Expr.lexemes, Expr.characters_name]
    exact ⟨n.lexeme, [], [], rfl, by simp [covered, Name.lexeme], legible, rfl⟩
  | .integer token value, legible => by
    rw [Expr.Legible] at legible
    rw [Expr.lexemes, Expr.characters_integer]
    exact ⟨⟨.integer, token.text.toList⟩, [], [], rfl, by simp [covered], legible.1, rfl⟩
  | .string token value, legible => by
    rw [Expr.Legible] at legible
    rw [Expr.lexemes, Expr.characters_string]
    exact ⟨⟨.string, value.toList⟩, [], [], rfl, by simp [covered], legible, rfl⟩
  | .boolean token value, _ => by
    rw [Expr.lexemes, Expr.characters_boolean]
    refine ⟨_, [], [], rfl, ?_, legible_word ?_, ?_⟩
    · rw [covered_word, List.append_nil]
    · cases value <;> decide
    · cases value <;> decide
  | .unary token operator operand, _ => by
    rw [Expr.lexemes, Expr.characters_unary]
    exact ⟨sign '(', _, _, rfl, rfl, legible_sign rfl, rfl⟩
  | .binary token left operator right, _ => by
    rw [Expr.lexemes, Expr.characters_binary]
    exact ⟨sign '(', _, _, rfl, rfl, legible_sign rfl, rfl⟩
  | .conditional token condition consequence none, _ => by
    rw [Expr.lexemes, Expr.characters_conditional]
    exact ⟨word "if", _, _, rfl, rfl, legible_word (by decide), rfl⟩
  | .conditional token condition consequence (some alternative), _ => by
    rw [Expr.lexemes, Expr.characters_alternative]
    exact ⟨word "if", _, _, rfl, rfl, legible_word (by decide), rfl⟩
  | .function token parameters body, legible => by
    rw [Expr.Legible] at legible
    rw [Expr.lexemes, Expr.characters_function, legible.1]
    exact ⟨word "fn", _, _, rfl, rfl, legible_word (by decide), rfl⟩
  | .call token callee arguments, legible => by
    rw [Expr.Legible] at legible
    obtain ⟨l, ls, more, front, shown, read, leads⟩ := callee.begins legible.1
    rw [Expr.lexemes, Expr.characters_call, front, shown]
    exact ⟨l, _, _, rfl, by rw [List.append_assoc], read, leads⟩
  | .array token elements, _ => by
    rw [Expr.lexemes, Expr.characters_array]
    exact ⟨sign '[', _, _, rfl, rfl, legible_sign rfl, rfl⟩
  | .index token collection position, _ => by
    rw [Expr.lexemes, Expr.characters_index]
    exact ⟨sign '(', _, _, rfl, rfl, legible_sign rfl, rfl⟩
termination_by structural e => e

theorem Lexeme.read_equals (cs : List Char) : (read '=' cs).1.kind.leads = false := by
  cases cs with
  | nil => rfl
  | cons d cs =>
    by_cases double : d = '='
    · rw [double]
      rfl
    · have ends : EndsBefore ⟨.assign, ['=']⟩ (d :: cs) := by
        intro c front
        cases front
        exact decide_eq_false double
      have found := readOperator?_single (c := '=') rfl ends
      show ((readOperator? ('=' :: d :: cs)).getD (⟨.illegal, ['=']⟩, d :: cs)).1.kind.leads = false
      rw [found]
      rfl

theorem Expr.operator_ends {e : Expr} (legible : e.Legible) {k : Kind}
    (known : k = .bang ∨ k = .minus) (tail : List Char) :
    EndsBefore ⟨k, k.name.toList⟩ (e.characters ++ tail) := by
  obtain ⟨l, ls, more, _, shown, read, leads⟩ := e.begins legible
  rw [shown, List.append_assoc]
  intro c front
  have other : c ≠ '=' := by
    rintro rfl
    obtain ⟨d, ds, split, back⟩ := read_back read (breaks_nil.ends l)
    rw [List.append_nil] at split
    rw [split] at front
    cases front
    have silent := read_equals ds
    rw [back, leads] at silent
    cases silent
  rcases known with rfl | rfl
  · exact decide_eq_false other
  · rfl

theorem Kind.mem_operators_of_operatorLevel? {k : Kind} (known : k.operatorLevel?.isSome) :
    k ∈ Kind.operators := by
  cases k <;> first | decide | cases known

theorem Name.scans_further (names : List Name) (legible : ∀ n ∈ names, n.Legible)
    {tail rest : List Char} {ls : List Lexeme} (breaks : Breaks tail) (further : Scans tail ls rest) :
    Scans (Name.furtherCharacters names ++ tail) (Name.furtherLexemes names ++ ls) rest ∧
      Breaks (Name.furtherCharacters names ++ tail) := by
  induction names with
  | nil => exact ⟨further, breaks⟩
  | cons n names ih =>
    obtain ⟨first, others⟩ := List.forall_mem_cons.1 legible
    obtain ⟨behind, broken⟩ := ih others
    simp only [Name.furtherCharacters, Name.furtherLexemes, List.flatMap_cons, List.cons_append,
      List.append_assoc, List.nil_append] at behind broken ⊢
    have shown := Scans.legible first (broken.ends _) behind
    exact ⟨.sign rfl (fun _ _ => rfl) (.blank rfl shown), breaks_cons rfl (by decide)⟩

theorem Name.scans_list (names : List Name) (legible : ∀ n ∈ names, n.Legible)
    {tail rest : List Char} {ls : List Lexeme} (breaks : Breaks tail) (further : Scans tail ls rest) :
    Scans (Name.listCharacters names ++ tail) (Name.listLexemes names ++ ls) rest := by
  cases names with
  | nil => exact further
  | cons n names =>
    obtain ⟨first, others⟩ := List.forall_mem_cons.1 legible
    obtain ⟨behind, broken⟩ := Name.scans_further names others breaks further
    have shown := Scans.legible first (broken.ends _) behind
    simp only [Name.listCharacters, Name.listLexemes, List.append_assoc, List.cons_append]
    exact shown

/-- Whether the rendering of an expression scans as its lexemes, if it is legible. -/
def Expr.Scannable (e : Expr) : Prop :=
  e.Legible → ∀ {tail rest : List Char} {ls : List Lexeme}, Breaks tail → Scans tail ls rest →
    Scans (e.characters ++ tail) (e.lexemes ++ ls) rest

def Stmt.Scannable (s : Stmt) : Prop :=
  s.Legible → ∀ {tail rest : List Char} {ls : List Lexeme}, Breaks tail → Scans tail ls rest →
    Scans (s.characters ++ tail) (s.lexemes ++ ls) rest

def Block.Scannable (b : Block) : Prop :=
  b.Legible → ∀ {tail rest : List Char} {ls : List Lexeme}, Scans tail ls rest →
    Scans (b.characters ++ tail) (b.lexemes ++ ls) rest

def Expr.ListScannable (es : List Expr) : Prop :=
  Expr.AllLegible es → ∀ {tail rest : List Char} {ls : List Lexeme}, Breaks tail →
    Scans tail ls rest → Scans (Expr.listCharacters es ++ tail) (Expr.listLexemes es ++ ls) rest

def Expr.FurtherScannable (es : List Expr) : Prop :=
  Expr.AllLegible es → ∀ {tail rest : List Char} {ls : List Lexeme}, Breaks tail →
    Scans tail ls rest →
      Scans (Expr.furtherCharacters es ++ tail) (Expr.furtherLexemes es ++ ls) rest ∧
        Breaks (Expr.furtherCharacters es ++ tail)

def Stmt.ListScannable (ss : List Stmt) : Prop :=
  Stmt.AllLegible ss → ∀ gap : Char, Layout.isBlank gap = true →
    ∀ {tail rest : List Char} {ls : List Lexeme}, Breaks tail → Scans tail ls rest →
      Scans (Stmt.listCharacters gap ss ++ tail) (Stmt.allLexemes ss ++ ls) rest

section

variable {token : Token} {a b e : Expr} {x y : Block} {es : List Expr} {s t : Stmt} {ss : List Stmt}

theorem scannable_name (n : Name) : (Expr.name n).Scannable := by
  intro legible _ _ _ breaks further
  rw [Expr.Legible] at legible
  rw [Expr.characters_name, Expr.lexemes]
  exact .legible legible (breaks.ends _) further

theorem scannable_integer (token : Token) (value : Int) :
    (Expr.integer token value).Scannable := by
  intro legible _ _ _ breaks further
  rw [Expr.Legible] at legible
  rw [Expr.characters_integer, Expr.lexemes]
  exact .legible legible.1 (breaks.ends _) further

theorem scannable_string (token : Token) (value : String) :
    (Expr.string token value).Scannable := by
  intro legible _ _ _ breaks further
  rw [Expr.Legible] at legible
  rw [Expr.characters_string, Expr.lexemes]
  exact .legible legible (breaks.ends _) further

theorem scannable_boolean (token : Token) (value : Bool) :
    (Expr.boolean token value).Scannable := by
  intro _ _ _ _ breaks further
  rw [Expr.characters_boolean, Expr.lexemes]
  refine .word _ ?_ breaks further
  cases value <;> decide

theorem scannable_unary {operator : String} (operand : a.Scannable) :
    (Expr.unary token operator a).Scannable := by
  intro legible tail rest ls _ further
  rw [Expr.Legible] at legible
  obtain ⟨known, shown, legible⟩ := legible
  have member : token.kind ∈ Kind.operators := by
    rcases known with kind | kind <;> rw [kind] <;> decide
  have closing : Scans (')' :: tail) (sign ')' :: ls) rest := .sign rfl (fun _ _ => rfl) further
  have inside := operand legible (breaks_cons rfl (by decide)) closing
  have applied := Scans.operator member (Expr.operator_ends legible known _) inside
  rw [Expr.characters_unary, Expr.lexemes, shown]
  simp only [List.cons_append, List.append_assoc, List.nil_append]
  exact .sign rfl (fun _ _ => rfl) applied

theorem scannable_binary {operator : String} (left : a.Scannable) (right : b.Scannable) :
    (Expr.binary token a operator b).Scannable := by
  intro legible tail rest ls _ further
  rw [Expr.Legible] at legible
  obtain ⟨known, shown, first, second⟩ := legible
  have member := Kind.mem_operators_of_operatorLevel? known
  have closing : Scans (')' :: tail) (sign ')' :: ls) rest := .sign rfl (fun _ _ => rfl) further
  have inside := right second (breaks_cons rfl (by decide)) closing
  have between := Scans.operator member ((breaks_cons rfl (by decide)).ends _)
    (.blank (c := ' ') rfl inside)
  have whole := left first (breaks_cons rfl (by decide)) (.blank (c := ' ') rfl between)
  rw [Expr.characters_binary, Expr.lexemes, shown]
  simp only [List.cons_append, List.append_assoc, List.nil_append]
  exact .sign rfl (fun _ _ => rfl) whole

theorem scannable_conditional (condition : a.Scannable) (consequence : x.Scannable) :
    (Expr.conditional token a x none).Scannable := by
  intro legible tail rest ls _ further
  rw [Expr.Legible] at legible
  have block := consequence legible.2 further
  have whole := condition legible.1 (breaks_cons rfl (by decide)) (.blank (c := ' ') rfl block)
  rw [Expr.characters_conditional, Expr.lexemes]
  simp only [List.cons_append, List.append_assoc]
  exact .spaced "if" (by decide) whole

theorem scannable_alternative (condition : a.Scannable) (consequence : x.Scannable)
    (alternative : y.Scannable) : (Expr.conditional token a x (some y)).Scannable := by
  intro legible tail rest ls _ further
  rw [Expr.Legible] at legible
  obtain ⟨first, second, third⟩ := legible
  have last := alternative third further
  have otherwise : Scans ("else".toList ++ ' ' :: (y.characters ++ tail)) _ rest :=
    .spaced "else" (by decide) last
  have block := consequence second (.blank (c := ' ') rfl otherwise)
  have whole := condition first (breaks_cons rfl (by decide)) (.blank (c := ' ') rfl block)
  rw [Expr.characters_alternative, Expr.lexemes]
  simp only [List.cons_append, List.append_assoc]
  exact .spaced "if" (by decide) whole

theorem scannable_function {parameters : List Name} (body : x.Scannable) :
    (Expr.function token parameters x).Scannable := by
  intro legible tail rest ls _ further
  rw [Expr.Legible] at legible
  obtain ⟨shown, named, legible⟩ := legible
  have block := body legible further
  have closing : Scans (')' :: ' ' :: (x.characters ++ tail)) (sign ')' :: _) rest :=
    .sign rfl (fun _ _ => rfl) (.blank rfl block)
  have listed := Name.scans_list parameters named (breaks_cons rfl (by decide)) closing
  rw [Expr.characters_function, Expr.lexemes, shown]
  simp only [List.cons_append, List.append_assoc]
  exact .word "fn" (by decide) (breaks_cons rfl (by decide)) (.sign rfl (fun _ _ => rfl) listed)

theorem scannable_call (callee : a.Scannable) (arguments : Expr.ListScannable es) :
    (Expr.call token a es).Scannable := by
  intro legible tail rest ls _ further
  rw [Expr.Legible] at legible
  have closing : Scans (')' :: tail) (sign ')' :: ls) rest := .sign rfl (fun _ _ => rfl) further
  have listed := arguments legible.2 (breaks_cons rfl (by decide)) closing
  have opening : Scans ('(' :: _) (sign '(' :: _) rest := .sign rfl (fun _ _ => rfl) listed
  have whole := callee legible.1 (breaks_cons rfl (by decide)) opening
  rw [Expr.characters_call, Expr.lexemes]
  simp only [List.cons_append, List.append_assoc, List.nil_append]
  exact whole

theorem scannable_array (elements : Expr.ListScannable es) : (Expr.array token es).Scannable := by
  intro legible tail rest ls _ further
  rw [Expr.Legible] at legible
  have closing : Scans (']' :: tail) (sign ']' :: ls) rest := .sign rfl (fun _ _ => rfl) further
  have listed := elements legible (breaks_cons rfl (by decide)) closing
  rw [Expr.characters_array, Expr.lexemes]
  simp only [List.cons_append, List.append_assoc, List.nil_append]
  exact .sign rfl (fun _ _ => rfl) listed

theorem scannable_index (collection : a.Scannable) (position : b.Scannable) :
    (Expr.index token a b).Scannable := by
  intro legible tail rest ls _ further
  rw [Expr.Legible] at legible
  have closing : Scans (')' :: tail) (sign ')' :: ls) rest := .sign rfl (fun _ _ => rfl) further
  have bracket : Scans (']' :: ')' :: tail) (sign ']' :: sign ')' :: ls) rest :=
    .sign rfl (fun _ _ => rfl) closing
  have inside := position legible.2 (breaks_cons rfl (by decide)) bracket
  have opening : Scans ('[' :: _) (sign '[' :: _) rest := .sign rfl (fun _ _ => rfl) inside
  have whole := collection legible.1 (breaks_cons rfl (by decide)) opening
  rw [Expr.characters_index, Expr.lexemes]
  simp only [List.cons_append, List.append_assoc, List.nil_append]
  exact .sign rfl (fun _ _ => rfl) whole

theorem scannable_binding {name : Name} (value : a.Scannable) :
    (Stmt.binding token name a).Scannable := by
  intro legible tail rest ls _ further
  rw [Stmt.Legible] at legible
  obtain ⟨shown, named, legible⟩ := legible
  have closing : Scans (';' :: tail) (sign ';' :: ls) rest := .sign rfl (fun _ _ => rfl) further
  have inside := value legible (breaks_cons rfl (by decide)) closing
  have assigns : Scans ('=' :: ' ' :: _) (sign '=' :: _) rest :=
    .sign rfl ((breaks_cons rfl (by decide)).ends _) (.blank (c := ' ') rfl inside)
  have behind := Scans.legible named ((breaks_cons rfl (by decide)).ends _)
    (.blank (c := ' ') rfl assigns)
  rw [Stmt.characters_binding, Stmt.lexemes, shown]
  simp only [List.cons_append, List.append_assoc, List.nil_append]
  exact .spaced "let" (by decide) behind

theorem scannable_result (value : a.Scannable) : (Stmt.result token a).Scannable := by
  intro legible tail rest ls _ further
  rw [Stmt.Legible] at legible
  have closing : Scans (';' :: tail) (sign ';' :: ls) rest := .sign rfl (fun _ _ => rfl) further
  have inside := value legible.2 (breaks_cons rfl (by decide)) closing
  rw [Stmt.characters_result, Stmt.lexemes, legible.1]
  simp only [List.cons_append, List.append_assoc, List.nil_append]
  exact .spaced "return" (by decide) inside

theorem scannable_expression (value : a.Scannable) : (Stmt.expression token a).Scannable := by
  intro legible _ _ _ breaks further
  rw [Stmt.Legible] at legible
  rw [Stmt.characters_expression, Stmt.lexemes]
  exact value legible breaks further

theorem scannable_empty : (Block.mk token []).Scannable := by
  intro _ tail rest ls further
  have closing : Scans ('\x7d' :: tail) (sign '\x7d' :: ls) rest :=
    .sign rfl (fun _ _ => rfl) further
  rw [Block.characters_empty, Block.lexemes, Stmt.allLexemes]
  exact .sign rfl (fun _ _ => rfl) (.blank rfl closing)

theorem scannable_filled (statements : Stmt.ListScannable (s :: ss)) :
    (Block.mk token (s :: ss)).Scannable := by
  intro legible tail rest ls further
  rw [Block.Legible] at legible
  have closing : Scans (' ' :: '\x7d' :: tail) (sign '\x7d' :: ls) rest :=
    .blank rfl (.sign rfl (fun _ _ => rfl) further)
  have inside := statements legible ' ' rfl (breaks_cons rfl (by decide)) closing
  rw [Block.characters_filled, Block.lexemes]
  simp only [List.cons_append, List.append_assoc, List.nil_append]
  exact .sign rfl (fun _ _ => rfl) (.blank rfl inside)

theorem scannable_items (first : e.Scannable) (others : Expr.FurtherScannable es) :
    Expr.ListScannable (e :: es) := by
  intro legible _ _ _ breaks further
  rw [Expr.AllLegible] at legible
  obtain ⟨behind, broken⟩ := others legible.2 breaks further
  rw [Expr.listCharacters, Expr.listLexemes, List.append_assoc, List.append_assoc]
  exact first legible.1 broken behind

theorem scannable_nextItem (first : e.Scannable) (others : Expr.FurtherScannable es) :
    Expr.FurtherScannable (e :: es) := by
  intro legible _ _ _ breaks further
  rw [Expr.AllLegible] at legible
  obtain ⟨behind, broken⟩ := others legible.2 breaks further
  have shown := first legible.1 broken behind
  simp only [Expr.furtherCharacters, List.flatMap_cons, Expr.furtherLexemes, List.cons_append,
    List.append_assoc] at shown ⊢
  exact ⟨.sign rfl (fun _ _ => rfl) (.blank rfl shown), breaks_cons rfl (by decide)⟩

theorem scannable_single (only : s.Scannable) : Stmt.ListScannable [s] := by
  intro legible gap _ _ _ _ breaks further
  rw [Stmt.AllLegible] at legible
  have alone := only legible.1 breaks further
  simp only [Stmt.listCharacters, Stmt.furtherCharacters, Stmt.allLexemes, List.flatMap_nil,
    List.append_nil]
  exact alone

theorem scannable_stmts (first : s.Scannable) (others : Stmt.ListScannable (t :: ss)) :
    Stmt.ListScannable (s :: t :: ss) := by
  intro legible gap blank _ _ _ breaks further
  rw [Stmt.AllLegible] at legible
  have behind := others legible.2 gap blank breaks further
  have whole := first legible.1 (breaks_blank blank _) (.blank blank behind)
  simp only [Stmt.listCharacters, Stmt.furtherCharacters, List.flatMap_cons, Stmt.allLexemes,
    List.cons_append, List.append_assoc] at whole ⊢
  exact whole

end

mutual

theorem Expr.scannable : (e : Expr) → e.Scannable
  | .bare _ => fun legible => by simp at legible
  | .name n => scannable_name n
  | .integer token value => scannable_integer token value
  | .string token value => scannable_string token value
  | .boolean token value => scannable_boolean token value
  | .unary _ _ a => scannable_unary a.scannable
  | .binary _ a _ b => scannable_binary a.scannable b.scannable
  | .conditional _ a x none => scannable_conditional a.scannable x.scannable
  | .conditional _ a x (some y) => scannable_alternative a.scannable x.scannable y.scannable
  | .function _ _ x => scannable_function x.scannable
  | .call _ a es => scannable_call a.scannable (Expr.scannable_list es)
  | .array _ es => scannable_array (Expr.scannable_list es)
  | .index _ a b => scannable_index a.scannable b.scannable
termination_by structural e => e

theorem Stmt.scannable : (s : Stmt) → s.Scannable
  | .bare _ | .block _ => fun legible => by simp at legible
  | .binding _ _ a => scannable_binding a.scannable
  | .result _ a => scannable_result a.scannable
  | .expression _ a => scannable_expression a.scannable
termination_by structural s => s

theorem Block.scannable : (b : Block) → b.Scannable
  | .mk _ [] => scannable_empty
  | .mk _ (s :: ss) => scannable_filled (Stmt.scannable_list (s :: ss))
termination_by structural b => b

theorem Expr.scannable_list : (es : List Expr) → Expr.ListScannable es
  | [] => fun _ _ _ _ _ further => further
  | e :: es => scannable_items e.scannable (Expr.scannable_further es)
termination_by structural es => es

theorem Expr.scannable_further : (es : List Expr) → Expr.FurtherScannable es
  | [] => fun _ _ _ _ breaks further => ⟨further, breaks⟩
  | e :: es => scannable_nextItem e.scannable (Expr.scannable_further es)
termination_by structural es => es

theorem Stmt.scannable_list : (ss : List Stmt) → Stmt.ListScannable ss
  | [] => fun _ _ _ _ _ _ _ further => further
  | [s] => scannable_single s.scannable
  | s :: t :: ss => scannable_stmts s.scannable (Stmt.scannable_list (t :: ss))
termination_by structural ss => ss

end

theorem Program.scans (p : Program) (legible : Stmt.AllLegible p.statements) :
    Scans p.render.toList (Stmt.allLexemes p.statements) [] := by
  have whole := Stmt.scannable_list p.statements legible '\n' rfl breaks_nil .done
  rw [List.append_nil, List.append_nil] at whole
  rw [p.characters_eq]
  exact whole

end PrattFrontEnd
