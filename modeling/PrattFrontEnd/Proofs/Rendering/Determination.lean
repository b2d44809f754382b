import PrattFrontEnd.Proofs.Rendering.Readability
import PrattFrontEnd.Proofs.Rendering.RoundTrip
import PrattFrontEnd.Proofs.Text.Numeral

/-!
A rendering and its program determine each other. Programs with one rendering are the same, since it
can be read in one way only. Programs that are the same have one rendering unless their integers are
written differently: a record keeps the value of an integer, a rendering its numeral, leading zeros
included. Main statement: `rendering_determines_program`.
-/
namespace PrattFrontEnd

mutual

@[simp] def Expr.integers : Expr → List Token
  | .bare _ | .name _ | .string _ _ | .boolean _ _ => []
  | .integer token _ => [token]
  | .unary _ _ operand => operand.integers
  | .binary _ left _ right => left.integers ++ right.integers
  | .conditional _ condition consequence none => condition.integers ++ consequence.integers
  | .conditional _ condition consequence (some alternative) =>
    condition.integers ++ (consequence.integers ++ alternative.integers)
  | .function _ _ body => body.integers
  | .call _ callee arguments => callee.integers ++ Expr.allIntegers arguments
  | .array _ elements => Expr.allIntegers elements
  | .index _ collection position => collection.integers ++ position.integers
termination_by structural e => e

@[simp] def Stmt.integers : Stmt → List Token
  | .bare _ => []
  | .binding _ _ value | .result _ value | .expression _ value => value.integers
  | .block b => b.integers
termination_by structural s => s

@[simp] def Block.integers : Block → List Token
  | .mk _ statements => Stmt.allIntegers statements
termination_by structural b => b

def Expr.allIntegers : List Expr → List Token
  | [] => []
  | e :: es => e.integers ++ Expr.allIntegers es
termination_by structural es => es

def Stmt.allIntegers : List Stmt → List Token
  | [] => []
  | s :: ss => s.integers ++ Stmt.allIntegers ss
termination_by structural ss => ss

end

def Program.integers (p : Program) : List Token := Stmt.allIntegers p.statements

/-- None of these tokens has a leading zero in front of further digits. -/
def Unpadded (tokens : List Token) : Prop := ∀ t ∈ tokens, Text.padded t.text.toList = false

theorem unpadded_append {ts us : List Token} (plain : Unpadded (ts ++ us)) :
    Unpadded ts ∧ Unpadded us :=
  List.forall_mem_append.1 plain

theorem Expr.kindName_eq {e f : Expr} (same : e.record = f.record) : e.kindName = f.kindName := by
  rw [e.record_eq, f.record_eq, Record.record.injEq] at same
  exact same.1

theorem Stmt.kindName_eq {s t : Stmt} (same : s.record = t.record) : s.kindName = t.kindName := by
  rw [s.record_eq, t.record_eq, Record.record.injEq] at same
  exact same.1

theorem Name.text_eq {n m : Name} (same : n.record = m.record) : n.text = m.text := by
  simp only [Name.record, Record.record.injEq, List.cons.injEq, Prod.mk.injEq, Record.text.injEq,
    true_and, and_true] at same
  exact same

theorem Name.texts_eq {ns ms : List Name} (same : ns.map Name.record = ms.map Name.record) :
    ns.map Name.text = ms.map Name.text := by
  induction ns generalizing ms with
  | nil => rw [List.map_eq_nil_iff.1 same.symm]
  | cons n ns ih =>
    cases ms with
    | nil => cases same
    | cons m ms =>
      obtain ⟨first, others⟩ := List.cons.inj same
      rw [List.map_cons, List.map_cons, Name.text_eq first, ih others]

theorem Expr.text_of_integer {t u : Token} {v w : Int} (legible : (Expr.integer t v).Legible)
    (legibleToo : (Expr.integer u w).Legible) (plain : Text.padded t.text.toList = false)
    (plainToo : Text.padded u.text.toList = false) (same : v = w) : t.text = u.text := by
  rw [Expr.Legible] at legible legibleToo
  obtain ⟨_, first, reads, rfl⟩ := legible
  obtain ⟨_, second, readsToo, rfl⟩ := legibleToo
  obtain ⟨⟨some, all⟩, _, value⟩ := Expression.integerValue?_eq_some_iff.1 reads
  obtain ⟨⟨someToo, allToo⟩, _, valueToo⟩ := Expression.integerValue?_eq_some_iff.1 readsToo
  have values : first = second := Int.ofNat.inj same
  rw [value, valueToo] at values
  exact String.toList_inj.1
    (Text.eq_of_digitsValue_eq some all plain someToo allToo plainToo values)

/-- Whether an expression is rendered like any other with its record, when no numeral is padded. -/
def Expr.Determined (e : Expr) : Prop :=
  ∀ f : Expr, e.Legible → f.Legible → Unpadded e.integers → Unpadded f.integers →
    e.record = f.record → e.characters = f.characters

def Stmt.Determined (s : Stmt) : Prop :=
  ∀ t : Stmt, s.Legible → t.Legible → Unpadded s.integers → Unpadded t.integers →
    s.record = t.record → s.characters = t.characters

def Block.Determined (b : Block) : Prop :=
  ∀ c : Block, b.Legible → c.Legible → Unpadded b.integers → Unpadded c.integers →
    b.record = c.record → b.characters = c.characters

def Expr.AllDetermined (es : List Expr) : Prop :=
  ∀ fs, Expr.AllLegible es → Expr.AllLegible fs → Unpadded (Expr.allIntegers es) →
    Unpadded (Expr.allIntegers fs) → Expr.records es = Expr.records fs →
    es.map Expr.characters = fs.map Expr.characters

def Stmt.AllDetermined (ss : List Stmt) : Prop :=
  ∀ ts, Stmt.AllLegible ss → Stmt.AllLegible ts → Unpadded (Stmt.allIntegers ss) →
    Unpadded (Stmt.allIntegers ts) → Stmt.records ss = Stmt.records ts →
    ss.map Stmt.characters = ts.map Stmt.characters

section

variable {t : Token} {a b e : Expr} {x : Block} {es : List Expr} {s : Stmt} {ss : List Stmt}

theorem determined_name (n : Name) : (Expr.name n).Determined := by
  intro f _ _ _ _ same
  have kinds := Expr.kindName_eq same
  cases f with
  | name m =>
    rw [Expr.record, Expr.record] at same
    rw [Expr.characters_name, Expr.characters_name, Name.text_eq same]
  | _ => simp [Expr.kindName] at kinds

theorem determined_integer (t : Token) (v : Int) : (Expr.integer t v).Determined := by
  intro f legible legibleToo plain plainToo same
  have kinds := Expr.kindName_eq same
  cases f with
  | integer u w =>
    rw [Expr.integers] at plain plainToo
    simp only [Expr.record, Record.record.injEq, List.cons.injEq, Prod.mk.injEq,
      Record.number.injEq, true_and, and_true] at same
    rw [Expr.characters_integer, Expr.characters_integer,
      Expr.text_of_integer legible legibleToo (plain t List.mem_cons_self)
        (plainToo u List.mem_cons_self) same]
  | _ => simp [Expr.kindName] at kinds

theorem determined_string (t : Token) (v : String) : (Expr.string t v).Determined := by
  intro f _ _ _ _ same
  have kinds := Expr.kindName_eq same
  cases f with
  | string _ w =>
    simp only [Expr.record, Record.record.injEq, List.cons.injEq, Prod.mk.injEq,
      Record.text.injEq, true_and, and_true] at same
    rw [Expr.characters_string, Expr.characters_string, same]
  | _ => simp [Expr.kindName] at kinds

theorem determined_boolean (t : Token) (v : Bool) : (Expr.boolean t v).Determined := by
  intro f _ _ _ _ same
  have kinds := Expr.kindName_eq same
  cases f with
  | boolean _ w =>
    simp only [Expr.record, Record.record.injEq, List.cons.injEq, Prod.mk.injEq,
      Record.truth.injEq, true_and, and_true] at same
    rw [Expr.characters_boolean, Expr.characters_boolean, same]
  | _ => simp [Expr.kindName] at kinds

theorem determined_unary {o : String} (operand : a.Determined) :
    (Expr.unary t o a).Determined := by
  intro f legible legibleToo plain plainToo same
  have kinds := Expr.kindName_eq same
  cases f with
  | unary _ p b =>
    rw [Expr.Legible] at legible legibleToo
    rw [Expr.integers] at plain plainToo
    simp only [Expr.record, Record.record.injEq, List.cons.injEq, Prod.mk.injEq,
      Record.text.injEq, true_and, and_true] at same
    rw [Expr.characters_unary, Expr.characters_unary, same.1,
      operand b legible.2.2 legibleToo.2.2 plain plainToo same.2]
  | _ => simp [Expr.kindName] at kinds

theorem determined_binary {o : String} (left : a.Determined) (right : b.Determined) :
    (Expr.binary t a o b).Determined := by
  intro f legible legibleToo plain plainToo same
  have kinds := Expr.kindName_eq same
  cases f with
  | binary _ c p d =>
    rw [Expr.Legible] at legible legibleToo
    rw [Expr.integers] at plain plainToo
    obtain ⟨_, _, first, second⟩ := legible
    obtain ⟨_, _, firstToo, secondToo⟩ := legibleToo
    simp only [Expr.record, Record.record.injEq, List.cons.injEq, Prod.mk.injEq,
      Record.text.injEq, true_and, and_true] at same
    rw [Expr.characters_binary, Expr.characters_binary, same.2.1,
      left c first firstToo (unpadded_append plain).1 (unpadded_append plainToo).1 same.1,
      right d second secondToo (unpadded_append plain).2 (unpadded_append plainToo).2 same.2.2]
  | _ => simp [Expr.kindName] at kinds

theorem determined_index (collection : a.Determined) (position : b.Determined) :
    (Expr.index t a b).Determined := by
  intro f legible legibleToo plain plainToo same
  have kinds := Expr.kindName_eq same
  cases f with
  | index _ c d =>
    rw [Expr.Legible] at legible legibleToo
    rw [Expr.integers] at plain plainToo
    simp only [Expr.record, Record.record.injEq, List.cons.injEq, Prod.mk.injEq,
      true_and, and_true] at same
    rw [Expr.characters_index, Expr.characters_index,
      collection c legible.1 legibleToo.1 (unpadded_append plain).1 (unpadded_append plainToo).1
        same.1,
      position d legible.2 legibleToo.2 (unpadded_append plain).2 (unpadded_append plainToo).2
        same.2]
  | _ => simp [Expr.kindName] at kinds

theorem record_conditional_ne {u : Token} {c d : Expr} {y z : Block} :
    (Expr.conditional t c x none).record ≠ (Expr.conditional u d y (some z)).record := by
  obtain ⟨_, _⟩ := z
  simp [Expr.record, Block.record]

theorem determined_conditional (condition : a.Determined) (consequence : x.Determined) :
    (Expr.conditional t a x none).Determined := by
  intro f legible legibleToo plain plainToo same
  have kinds := Expr.kindName_eq same
  cases f with
  | conditional _ c y z =>
    cases z with
    | none =>
      rw [Expr.Legible] at legible legibleToo
      rw [Expr.integers] at plain plainToo
      simp only [Expr.record, Record.record.injEq, List.cons.injEq, Prod.mk.injEq,
        true_and, and_true] at same
      rw [Expr.characters_conditional, Expr.characters_conditional,
        condition c legible.1 legibleToo.1 (unpadded_append plain).1 (unpadded_append plainToo).1
          same.1,
        consequence y legible.2 legibleToo.2 (unpadded_append plain).2
          (unpadded_append plainToo).2 same.2]
    | some z => exact absurd same record_conditional_ne
  | _ => simp [Expr.kindName] at kinds

theorem determined_alternative {y : Block} (condition : a.Determined)
    (consequence : x.Determined) (alternative : y.Determined) :
    (Expr.conditional t a x (some y)).Determined := by
  intro f legible legibleToo plain plainToo same
  have kinds := Expr.kindName_eq same
  cases f with
  | conditional _ c z w =>
    cases w with
    | none => exact absurd same.symm record_conditional_ne
    | some w =>
      rw [Expr.Legible] at legible legibleToo
      rw [Expr.integers] at plain plainToo
      obtain ⟨plainFirst, plainOthers⟩ := unpadded_append plain
      obtain ⟨plainFirstToo, plainOthersToo⟩ := unpadded_append plainToo
      simp only [Expr.record, Record.record.injEq, List.cons.injEq, Prod.mk.injEq,
        true_and, and_true] at same
      rw [Expr.characters_alternative, Expr.characters_alternative,
        condition c legible.1 legibleToo.1 plainFirst plainFirstToo same.1,
        consequence z legible.2.1 legibleToo.2.1 (unpadded_append plainOthers).1
          (unpadded_append plainOthersToo).1 same.2.1,
        alternative w legible.2.2 legibleToo.2.2 (unpadded_append plainOthers).2
          (unpadded_append plainOthersToo).2 same.2.2]
  | _ => simp [Expr.kindName] at kinds

theorem determined_function {ns : List Name} (body : x.Determined) :
    (Expr.function t ns x).Determined := by
  intro f legible legibleToo plain plainToo same
  have kinds := Expr.kindName_eq same
  cases f with
  | function u ms y =>
    rw [Expr.Legible] at legible legibleToo
    rw [Expr.integers] at plain plainToo
    simp only [Expr.record, Record.record.injEq, List.cons.injEq, Prod.mk.injEq,
      Record.list.injEq, true_and, and_true] at same
    rw [Expr.characters_function, Expr.characters_function, legible.1, legibleToo.1,
      Name.listCharacters_congr (Name.texts_eq same.1),
      body y legible.2.2 legibleToo.2.2 plain plainToo same.2]
  | _ => simp [Expr.kindName] at kinds

theorem determined_call (callee : a.Determined) (arguments : Expr.AllDetermined es) :
    (Expr.call t a es).Determined := by
  intro f legible legibleToo plain plainToo same
  have kinds := Expr.kindName_eq same
  cases f with
  | call _ c fs =>
    rw [Expr.Legible] at legible legibleToo
    rw [Expr.integers] at plain plainToo
    simp only [Expr.record, Record.record.injEq, List.cons.injEq, Prod.mk.injEq,
      Record.list.injEq, true_and, and_true] at same
    rw [Expr.characters_call, Expr.characters_call,
      callee c legible.1 legibleToo.1 (unpadded_append plain).1 (unpadded_append plainToo).1
        same.1,
      Expr.listCharacters_congr (arguments fs legible.2 legibleToo.2 (unpadded_append plain).2
        (unpadded_append plainToo).2 same.2)]
  | _ => simp [Expr.kindName] at kinds

theorem determined_array (elements : Expr.AllDetermined es) :
    (Expr.array t es).Determined := by
  intro f legible legibleToo plain plainToo same
  have kinds := Expr.kindName_eq same
  cases f with
  | array _ fs =>
    rw [Expr.Legible] at legible legibleToo
    rw [Expr.integers] at plain plainToo
    simp only [Expr.record, Record.record.injEq, List.cons.injEq, Prod.mk.injEq,
      Record.list.injEq, true_and, and_true] at same
    rw [Expr.characters_array, Expr.characters_array,
      Expr.listCharacters_congr (elements fs legible legibleToo plain plainToo same)]
  | _ => simp [Expr.kindName] at kinds

theorem determined_binding {n : Name} (value : a.Determined) :
    (Stmt.binding t n a).Determined := by
  intro u legible legibleToo plain plainToo same
  have kinds := Stmt.kindName_eq same
  cases u with
  | binding _ m b =>
    rw [Stmt.Legible] at legible legibleToo
    rw [Stmt.integers] at plain plainToo
    simp only [Stmt.record, Record.record.injEq, List.cons.injEq, Prod.mk.injEq,
      true_and, and_true] at same
    rw [Stmt.characters_binding, Stmt.characters_binding, legible.1, legibleToo.1,
      Name.text_eq same.1, value b legible.2.2 legibleToo.2.2 plain plainToo same.2]
  | _ => simp [Stmt.kindName] at kinds

theorem determined_result (value : a.Determined) : (Stmt.result t a).Determined := by
  intro u legible legibleToo plain plainToo same
  have kinds := Stmt.kindName_eq same
  cases u with
  | result _ b =>
    rw [Stmt.Legible] at legible legibleToo
    rw [Stmt.integers] at plain plainToo
    simp only [Stmt.record, Record.record.injEq, List.cons.injEq, Prod.mk.injEq,
      true_and, and_true] at same
    rw [Stmt.characters_result, Stmt.characters_result, legible.1, legibleToo.1,
      value b legible.2 legibleToo.2 plain plainToo same]
  | _ => simp [Stmt.kindName] at kinds

theorem determined_expression (value : a.Determined) : (Stmt.expression t a).Determined := by
  intro u legible legibleToo plain plainToo same
  have kinds := Stmt.kindName_eq same
  cases u with
  | expression _ b =>
    rw [Stmt.Legible] at legible legibleToo
    rw [Stmt.integers] at plain plainToo
    simp only [Stmt.record, Record.record.injEq, List.cons.injEq, Prod.mk.injEq,
      true_and, and_true] at same
    rw [Stmt.characters_expression, Stmt.characters_expression,
      value b legible legibleToo plain plainToo same]
  | _ => simp [Stmt.kindName] at kinds

theorem determined_block (statements : Stmt.AllDetermined ss) : (Block.mk t ss).Determined := by
  rintro ⟨u, ts⟩ legible legibleToo plain plainToo same
  rw [Block.Legible] at legible legibleToo
  rw [Block.integers] at plain plainToo
  simp only [Block.record, Record.record.injEq, List.cons.injEq, Prod.mk.injEq,
    Record.list.injEq, true_and, and_true] at same
  exact Block.characters_congr t u (statements ts legible legibleToo plain plainToo same)

theorem determined_list (first : e.Determined) (others : Expr.AllDetermined es) :
    Expr.AllDetermined (e :: es) := by
  rintro (_ | ⟨f, fs⟩) legible legibleToo plain plainToo same
  · simp [Expr.records] at same
  · rw [Expr.AllLegible] at legible legibleToo
    rw [Expr.allIntegers] at plain plainToo
    rw [Expr.records, Expr.records, List.cons.injEq] at same
    rw [List.map_cons, List.map_cons,
      first f legible.1 legibleToo.1 (unpadded_append plain).1 (unpadded_append plainToo).1 same.1,
      others fs legible.2 legibleToo.2 (unpadded_append plain).2 (unpadded_append plainToo).2
        same.2]

theorem determined_sequence (first : s.Determined) (others : Stmt.AllDetermined ss) :
    Stmt.AllDetermined (s :: ss) := by
  rintro (_ | ⟨u, us⟩) legible legibleToo plain plainToo same
  · simp [Stmt.records] at same
  · rw [Stmt.AllLegible] at legible legibleToo
    rw [Stmt.allIntegers] at plain plainToo
    rw [Stmt.records, Stmt.records, List.cons.injEq] at same
    rw [List.map_cons, List.map_cons,
      first u legible.1 legibleToo.1 (unpadded_append plain).1 (unpadded_append plainToo).1 same.1,
      others us legible.2 legibleToo.2 (unpadded_append plain).2 (unpadded_append plainToo).2
        same.2]

end

mutual

theorem Expr.determined : (e : Expr) → e.Determined
  | .bare _ => fun _ legible => by simp at legible
  | .name n => determined_name n
  | .integer t v => determined_integer t v
  | .string t v => determined_string t v
  | .boolean t v => determined_boolean t v
  | .unary _ _ a => determined_unary a.determined
  | .binary _ a _ b => determined_binary a.determined b.determined
  | .conditional _ a x none => determined_conditional a.determined x.determined
  | .conditional _ a x (some y) =>
    determined_alternative a.determined x.determined y.determined
  | .function _ _ x => determined_function x.determined
  | .call _ a es => determined_call a.determined (Expr.determined_all es)
  | .array _ es => determined_array (Expr.determined_all es)
  | .index _ a b => determined_index a.determined b.determined
termination_by structural e => e

theorem Stmt.determined : (s : Stmt) → s.Determined
  | .bare _ | .block _ => fun _ legible => by simp at legible
  | .binding _ _ a => determined_binding a.determined
  | .result _ a => determined_result a.determined
  | .expression _ a => determined_expression a.determined
termination_by structural s => s

theorem Block.determined : (b : Block) → b.Determined
  | .mk _ ss => determined_block (Stmt.determined_all ss)
termination_by structural b => b

theorem Expr.determined_all : (es : List Expr) → Expr.AllDetermined es
  | [] => fun fs _ _ _ _ same => by
    cases fs with
    | nil => rfl
    | cons f fs => simp [Expr.records] at same
  | e :: es => determined_list e.determined (Expr.determined_all es)
termination_by structural es => es

theorem Stmt.determined_all : (ss : List Stmt) → Stmt.AllDetermined ss
  | [] => fun ts _ _ _ _ same => by
    cases ts with
    | nil => rfl
    | cons t ts => simp [Stmt.records] at same
  | s :: ss => determined_sequence s.determined (Stmt.determined_all ss)
termination_by structural ss => ss

end

theorem Program.same_of_render {p q : Program} (legible : Stmt.AllLegible p.statements)
    (legibleToo : Stmt.AllLegible q.statements) (same : p.render = q.render) : p.same q = true := by
  obtain ⟨ts, delivers, spelled, _⟩ := p.delivers_of_legible legible
  obtain ⟨us, deliversToo, spelledToo, _⟩ := q.delivers_of_legible legibleToo
  rw [same] at delivers
  rw [Source.delivers_unique delivers deliversToo, spelledToo] at spelled
  have records := Stmt.records_of_lexemes legible legibleToo spelled.symm
  rw [Stmt.records_eq_map, Stmt.records_eq_map] at records
  exact (Program.same_iff_record p q).2 records

theorem Program.render_of_same {p q : Program} (legible : Stmt.AllLegible p.statements)
    (legibleToo : Stmt.AllLegible q.statements) (plain : Unpadded p.integers)
    (plainToo : Unpadded q.integers) (same : p.same q = true) : p.render = q.render := by
  have records := (Program.same_iff_record p q).1 same
  rw [← Stmt.records_eq_map, ← Stmt.records_eq_map] at records
  have characters :=
    Stmt.determined_all p.statements q.statements legible legibleToo plain plainToo records
  apply String.toList_inj.1
  rw [p.characters_eq, q.characters_eq, Stmt.listCharacters_congr '\n' characters]

/-- Whatever two source texts were parsed into, with diagnostics or without: programs that are
rendered as one text are the same, and programs that are the same are rendered as one text when no
integer in them has a leading zero it could do without. -/
theorem rendering_determines_program (first second : String) (firstDepth secondDepth : Int) :
    ((parse first firstDepth).program.render = (parse second secondDepth).program.render →
      (parse first firstDepth).program.same (parse second secondDepth).program = true) ∧
    ((parse first firstDepth).program.same (parse second secondDepth).program = true →
      Unpadded (parse first firstDepth).program.integers →
      Unpadded (parse second secondDepth).program.integers →
      (parse first firstDepth).program.render = (parse second secondDepth).program.render) := by
  have legible := legible_of_parse first firstDepth
  have legibleToo := legible_of_parse second secondDepth
  constructor
  · exact Program.same_of_render legible legibleToo
  · intro same plain plainToo
    exact Program.render_of_same legible legibleToo plain plainToo same

/-- Layout, parentheses and a statement that is dropped leave the rendering and the program as they
are. -/
theorem grouped_sum_determined :
    (parse "a + (10 * b)" 100).program.same (parse "let; (a+10*b)" 7).program = true ∧
      (parse "a + (10 * b)" 100).program.render = (parse "let; (a+10*b)" 7).program.render := by
  have shown : (parse "a + (10 * b)" 100).program.render =
      (parse "let; (a+10*b)" 7).program.render := by decide +kernel
  have same := (rendering_determines_program "a + (10 * b)" "let; (a+10*b)" 100 7).1 shown
  refine ⟨same, ?_⟩
  exact (rendering_determines_program "a + (10 * b)" "let; (a+10*b)" 100 7).2 same
    (by unfold Unpadded; decide +kernel) (by unfold Unpadded; decide +kernel)

end PrattFrontEnd
