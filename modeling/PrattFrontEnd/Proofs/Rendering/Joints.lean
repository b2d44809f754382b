import PrattFrontEnd.Proofs.Rendering.Grouping
import PrattFrontEnd.Syntax.Record

/-!
Where one expression is applied to another. A parenthesis or bracket that opens right behind the end
of an expression is a joint. In what can be derived there is one joint for each call and each index
of the tree, and no other. Main statement: `joints_of_derivesFrom`.
-/
namespace PrattFrontEnd

def Kind.concludes (k : Kind) : Bool :=
  k ∈ [.identifier, .integer, .string, .trueWord, .falseWord, .rightParen, .rightBracket, .rightBrace]

def Kind.applies (k : Kind) : Bool := k = .leftParen || k = .leftBracket

/-- How many joints there are in a list of kinds that stands behind the end of an expression, or
behind something else. -/
def joints : Bool → List Kind → Nat
  | _, [] => 0
  | behind, k :: ks => (behind && k.applies).toNat + joints k.concludes ks

@[simp] theorem joints_nil (behind : Bool) : joints behind [] = 0 := rfl

@[simp] theorem joints_cons (behind : Bool) (k : Kind) (ks : List Kind) :
    joints behind (k :: ks) = (behind && k.applies).toNat + joints k.concludes ks := rfl

theorem joints_plain {k : Kind} (plain : k.applies = false ∧ k.concludes = false) (behind : Bool)
    (ks : List Kind) : joints behind (k :: ks) = joints false ks := by
  simp [plain]

theorem joints_concluding {k : Kind} (ends : k.applies = false ∧ k.concludes = true) (behind : Bool)
    (ks : List Kind) : joints behind (k :: ks) = joints true ks := by
  simp [ends]

theorem joints_front {ks : List Kind} (quiet : ∀ k ∈ ks.head?, k.applies = false) (behind : Bool) :
    joints behind ks = joints false ks := by
  cases ks with
  | nil => rfl
  | cons k ks => simp [quiet k rfl]

mutual

def Record.applications : Record → Nat
  | .text _ | .number _ | .truth _ | .absent => 0
  | .list items => Record.itemsApplications items
  | .record kind fields =>
    (kind = "CallExpression" || kind = "IndexExpression").toNat + Record.fieldsApplications fields
termination_by structural r => r

def Record.itemsApplications : List Record → Nat
  | [] => 0
  | r :: rs => r.applications + Record.itemsApplications rs
termination_by structural rs => rs

def Record.fieldsApplications : List (String × Record) → Nat
  | [] => 0
  | (_, r) :: fields => r.applications + Record.fieldsApplications fields
termination_by structural fields => fields

end

def Expr.applications (e : Expr) : Nat := e.record.applications

def Stmt.applications (s : Stmt) : Nat := s.record.applications

def Block.applications (b : Block) : Nat := b.record.applications

def Expr.allApplications (es : List Expr) : Nat := Record.itemsApplications (Expr.records es)

def Stmt.allApplications (ss : List Stmt) : Nat := Record.itemsApplications (Stmt.records ss)

theorem Record.applications_names (names : List Name) :
    Record.itemsApplications (names.map Name.record) = 0 := by
  induction names with
  | nil => rfl
  | cons n names ih => simp [Name.record, applications, itemsApplications, fieldsApplications, ih]

section

variable (token : Token) (operator text : String) (value : Int) (truth : Bool) (n : Name)
  (names : List Name) (e left right : Expr) (es : List Expr) (s : Stmt) (ss : List Stmt)
  (b alternative : Block)

@[simp] theorem Expr.applications_name : (Expr.name n).applications = 0 := rfl

@[simp] theorem Expr.applications_integer : (Expr.integer token value).applications = 0 := rfl

@[simp] theorem Expr.applications_string : (Expr.string token text).applications = 0 := rfl

@[simp] theorem Expr.applications_boolean : (Expr.boolean token truth).applications = 0 := rfl

@[simp] theorem Expr.applications_unary :
    (Expr.unary token operator e).applications = e.applications := by
  simp [applications, Expr.record, Record.applications, Record.fieldsApplications]

@[simp] theorem Expr.applications_binary :
    (Expr.binary token left operator right).applications =
      left.applications + right.applications := by
  simp [applications, Expr.record, Record.applications, Record.fieldsApplications]

@[simp] theorem Expr.applications_conditional :
    (Expr.conditional token e b none).applications = e.applications + b.applications := by
  simp [applications, Expr.record, Record.applications, Record.fieldsApplications,
    Block.applications]

@[simp] theorem Expr.applications_alternative :
    (Expr.conditional token e b (some alternative)).applications =
      e.applications + (b.applications + alternative.applications) := by
  simp [applications, Expr.record, Record.applications, Record.fieldsApplications,
    Block.applications]

@[simp] theorem Expr.applications_function :
    (Expr.function token names b).applications = b.applications := by
  simp [applications, Expr.record, Record.applications, Record.fieldsApplications,
    Block.applications, Record.applications_names]

@[simp] theorem Expr.applications_call :
    (Expr.call token e es).applications = e.applications + (1 + Expr.allApplications es) := by
  simp [Nat.add_left_comm, applications, Expr.record, Record.applications,
    Record.fieldsApplications, allApplications]

@[simp] theorem Expr.applications_array :
    (Expr.array token es).applications = Expr.allApplications es := by
  simp [applications, Expr.record, Record.applications, Record.fieldsApplications, allApplications]

@[simp] theorem Expr.applications_index :
    (Expr.index token left right).applications =
      left.applications + (1 + right.applications) := by
  simp [Nat.add_left_comm, applications, Expr.record, Record.applications, Record.fieldsApplications]

@[simp] theorem Expr.allApplications_nil : Expr.allApplications [] = 0 := rfl

@[simp] theorem Expr.allApplications_cons :
    Expr.allApplications (e :: es) = e.applications + Expr.allApplications es := rfl

@[simp] theorem Stmt.applications_binding :
    (Stmt.binding token n e).applications = e.applications := by
  simp [applications, Expr.applications, Stmt.record, Name.record, Record.applications,
    Record.fieldsApplications]

@[simp] theorem Stmt.applications_result : (Stmt.result token e).applications = e.applications := by
  simp [applications, Expr.applications, Stmt.record, Record.applications,
    Record.fieldsApplications]

@[simp] theorem Stmt.applications_expression :
    (Stmt.expression token e).applications = e.applications := by
  simp [applications, Expr.applications, Stmt.record, Record.applications,
    Record.fieldsApplications]

@[simp] theorem Block.applications_mk :
    (Block.mk token ss).applications = Stmt.allApplications ss := by
  simp [applications, Block.record, Record.applications, Record.fieldsApplications,
    Stmt.allApplications]

@[simp] theorem Stmt.allApplications_nil : Stmt.allApplications [] = 0 := rfl

@[simp] theorem Stmt.allApplications_cons :
    Stmt.allApplications (s :: ss) = s.applications + Stmt.allApplications ss := rfl

end

theorem Kind.silent_of_operatorLevel? {k : Kind} {l : Level} (known : k.operatorLevel? = some l) :
    k.applies = false ∧ k.concludes = false := by
  cases k <;> cases known <;> decide

theorem Kind.applies_of_prolongs {k : Kind} (still : k.prolongs = false) : k.applies = false := by
  cases k <;> first | rfl | cases still

/-- The joints of a phrase are the applications of its tree. Lists in delimiters are counted up to
what closes them. -/
def Phrase.Joins (phrase : Phrase) (ts rest : List Token) : Prop :=
  match phrase with
  | .expr _ e => joints false (kinds ts) = e.applications + joints true (kinds rest)
  | .items es => (∀ k ∈ (kinds rest).head?, k.applies = false) →
    joints false (kinds ts) = Expr.allApplications es + joints true (kinds rest)
  | .furtherItems es =>
    joints true (kinds ts) = Expr.allApplications es + joints true (kinds rest)
  | .names _ => (∀ k ∈ (kinds rest).head?, k.applies = false) →
    joints false (kinds ts) = joints true (kinds rest)
  | .furtherNames _ => joints true (kinds ts) = joints true (kinds rest)
  | .block b => ∀ behind, joints behind (kinds ts) = b.applications + joints true (kinds rest)
  | .stmt s => joints false (kinds ts) = s.applications + joints false (kinds rest)
  | .stmts ss => joints false (kinds ts) = Stmt.allApplications ss + joints false (kinds rest)

theorem joints_ended {mid rest : List Token} (ended : Ended mid rest) :
    joints true (kinds mid) = joints false (kinds rest) := by
  rcases ended with ⟨semicolon, kind, rfl⟩ | ⟨rfl, still⟩
  · simp [kind, Kind.applies, Kind.concludes]
  · apply joints_front
    intro k front
    cases mid with
    | nil => cases front
    | cons t ts =>
      cases front
      exact Kind.applies_of_prolongs (still t rfl)

section

variable {t : Token} {ts : List Token} {k : Kind}

theorem Token.joints_plain (kind : t.kind = k) (plain : k.applies = false ∧ k.concludes = false)
    (behind : Bool) : joints behind (kinds (t :: ts)) = joints false (kinds ts) := by
  rw [kinds_cons, kind, PrattFrontEnd.joints_plain plain]

theorem Token.joints_concluding (kind : t.kind = k)
    (ends : k.applies = false ∧ k.concludes = true) (behind : Bool) :
    joints behind (kinds (t :: ts)) = joints true (kinds ts) := by
  rw [kinds_cons, kind, PrattFrontEnd.joints_concluding ends]

theorem Token.joints_opening (kind : t.kind = k) (opens : k.applies = true ∧ k.concludes = false)
    (behind : Bool) :
    joints behind (kinds (t :: ts)) = behind.toNat + joints false (kinds ts) := by
  rw [kinds_cons, kind, joints_cons, opens.1, opens.2, Bool.and_true]

theorem quiet_closing (kind : t.kind = k) (quiet : k.applies = false) :
    ∀ k ∈ (kinds (t :: ts)).head?, k.applies = false := by
  intro k front
  cases front
  rw [kind, quiet]

end

section

variable {l m n : Level} {e a i : Expr} {b d : Block} {es : List Expr} {ns : List Name}
  {ss : List Stmt} {ts mid late rest : List Token} {word opened closed : Token}

theorem joins_binary {operator : Token} {text : String}
    (known : operator.kind.operatorLevel? = some l)
    (left : (Phrase.expr m e).Joins ts (operator :: mid))
    (right : (Phrase.expr n a).Joins mid rest) :
    (Phrase.expr l (.binary operator e text a)).Joins ts rest := by
  simp only [Phrase.Joins] at left right ⊢
  rw [left, operator.joints_plain rfl (Kind.silent_of_operatorLevel? known), right,
    Expr.applications_binary, Nat.add_assoc]

theorem joins_unary {operator : Token} {text : String}
    (known : operator.kind = .bang ∨ operator.kind = .minus)
    (operand : (Phrase.expr m e).Joins ts rest) :
    (Phrase.expr l (.unary operator text e)).Joins (operator :: ts) rest := by
  simp only [Phrase.Joins] at operand ⊢
  have plain : operator.kind.applies = false ∧ operator.kind.concludes = false := by
    rcases known with kind | kind <;> rw [kind] <;> decide
  rw [operator.joints_plain rfl plain, operand, Expr.applications_unary]

theorem joins_call (opens : opened.kind = .leftParen) (closes : closed.kind = .rightParen)
    (callee : (Phrase.expr m e).Joins ts (opened :: mid))
    (arguments : (Phrase.items es).Joins mid (closed :: rest)) :
    (Phrase.expr l (.call opened e es)).Joins ts rest := by
  simp only [Phrase.Joins] at callee arguments ⊢
  rw [callee, opened.joints_opening opens (by decide), arguments (quiet_closing closes (by decide)),
    closed.joints_concluding closes (by decide), Expr.applications_call, Bool.toNat_true]
  omega

theorem joins_index (opens : opened.kind = .leftBracket) (closes : closed.kind = .rightBracket)
    (collection : (Phrase.expr m a).Joins ts (opened :: mid))
    (position : (Phrase.expr n i).Joins mid (closed :: rest)) :
    (Phrase.expr l (.index opened a i)).Joins ts rest := by
  simp only [Phrase.Joins] at collection position ⊢
  rw [collection, opened.joints_opening opens (by decide), position,
    closed.joints_concluding closes (by decide), Expr.applications_index, Bool.toNat_true]
  omega

theorem joins_single {t : Token} {k : Kind} (kind : t.kind = k)
    (ends : k.applies = false ∧ k.concludes = true) (none : e.applications = 0) :
    (Phrase.expr l e).Joins (t :: rest) rest := by
  rw [Phrase.Joins, t.joints_concluding kind ends, none, Nat.zero_add]

theorem joins_group (opens : opened.kind = .leftParen) (closes : closed.kind = .rightParen)
    (inner : (Phrase.expr m e).Joins ts (closed :: rest)) :
    (Phrase.expr l e).Joins (opened :: ts) rest := by
  simp only [Phrase.Joins] at inner ⊢
  rw [opened.joints_opening opens (by decide), inner, closed.joints_concluding closes (by decide),
    Bool.toNat_false, Nat.zero_add]

theorem joins_array (opens : opened.kind = .leftBracket) (closes : closed.kind = .rightBracket)
    (elements : (Phrase.items es).Joins ts (closed :: rest)) :
    (Phrase.expr l (.array opened es)).Joins (opened :: ts) rest := by
  simp only [Phrase.Joins] at elements ⊢
  rw [opened.joints_opening opens (by decide), elements (quiet_closing closes (by decide)),
    closed.joints_concluding closes (by decide), Expr.applications_array, Bool.toNat_false,
    Nat.zero_add]

theorem joints_of_condition (kind : word.kind = .ifWord) (opens : opened.kind = .leftParen)
    (closes : closed.kind = .rightParen)
    (condition : (Phrase.expr m e).Joins ts (closed :: mid)) :
    joints false (kinds (word :: opened :: ts)) = e.applications + joints true (kinds mid) := by
  simp only [Phrase.Joins] at condition
  rw [word.joints_plain kind (by decide), opened.joints_opening opens (by decide), condition,
    closed.joints_concluding closes (by decide), Bool.toNat_false, Nat.zero_add]

theorem joins_conditional (kind : word.kind = .ifWord) (opens : opened.kind = .leftParen)
    (closes : closed.kind = .rightParen) (condition : (Phrase.expr m e).Joins ts (closed :: mid))
    (consequence : (Phrase.block b).Joins mid rest) :
    (Phrase.expr l (.conditional word e b none)).Joins (word :: opened :: ts) rest := by
  simp only [Phrase.Joins] at consequence ⊢
  rw [joints_of_condition kind opens closes condition, consequence, Expr.applications_conditional,
    Nat.add_assoc]

theorem joins_alternative {other : Token} (kind : word.kind = .ifWord)
    (opens : opened.kind = .leftParen) (closes : closed.kind = .rightParen)
    (otherwise : other.kind = .elseWord) (condition : (Phrase.expr m e).Joins ts (closed :: mid))
    (consequence : (Phrase.block b).Joins mid (other :: late))
    (alternative : (Phrase.block d).Joins late rest) :
    (Phrase.expr l (.conditional word e b (some d))).Joins (word :: opened :: ts) rest := by
  simp only [Phrase.Joins] at consequence alternative ⊢
  rw [joints_of_condition kind opens closes condition, consequence,
    other.joints_plain otherwise (by decide), alternative, Expr.applications_alternative,
    Nat.add_assoc, Nat.add_assoc]

theorem joins_function (kind : word.kind = .functionWord) (opens : opened.kind = .leftParen)
    (closes : closed.kind = .rightParen) (parameters : (Phrase.names ns).Joins ts (closed :: mid))
    (body : (Phrase.block b).Joins mid rest) :
    (Phrase.expr l (.function word ns b)).Joins (word :: opened :: ts) rest := by
  simp only [Phrase.Joins] at parameters body ⊢
  rw [word.joints_plain kind (by decide), opened.joints_opening opens (by decide),
    parameters (quiet_closing closes (by decide)), closed.joints_concluding closes (by decide),
    body, Expr.applications_function, Bool.toNat_false, Nat.zero_add]

theorem joins_items (first : (Phrase.expr m e).Joins ts mid)
    (further : (Phrase.furtherItems es).Joins mid rest) : (Phrase.items (e :: es)).Joins ts rest := by
  intro _
  simp only [Phrase.Joins] at first further
  rw [first, further, Expr.allApplications_cons, Nat.add_assoc]

theorem joins_nextItem {comma : Token} (kind : comma.kind = .comma)
    (next : (Phrase.expr m e).Joins ts mid) (further : (Phrase.furtherItems es).Joins mid rest) :
    (Phrase.furtherItems (e :: es)).Joins (comma :: ts) rest := by
  simp only [Phrase.Joins] at next further ⊢
  rw [comma.joints_plain kind (by decide), next, further, Expr.allApplications_cons, Nat.add_assoc]

theorem joins_closed (opens : opened.kind = .leftBrace) (closes : closed.kind = .rightBrace)
    (inside : (Phrase.stmts ss).Joins ts (closed :: rest)) :
    (Phrase.block (.mk opened ss)).Joins (opened :: ts) rest := by
  intro behind
  simp only [Phrase.Joins] at inside
  rw [opened.joints_plain opens (by decide), inside, closed.joints_concluding closes (by decide),
    Block.applications_mk]

theorem joins_unclosed (opens : opened.kind = .leftBrace) (inside : (Phrase.stmts ss).Joins ts []) :
    (Phrase.block (.mk opened ss)).Joins (opened :: ts) [] := by
  intro behind
  simp only [Phrase.Joins] at inside
  rw [opened.joints_plain opens (by decide), inside, Block.applications_mk]
  rfl

theorem joins_binding {t assign : Token} {name : Name} (kind : word.kind = .letWord)
    (named : t.kind = .identifier) (assigns : assign.kind = .assign)
    (value : (Phrase.expr m e).Joins ts mid) (ended : Ended mid rest) :
    (Phrase.stmt (.binding word name e)).Joins (word :: t :: assign :: ts) rest := by
  simp only [Phrase.Joins] at value ⊢
  rw [word.joints_plain kind (by decide), t.joints_concluding named (by decide),
    assign.joints_plain assigns (by decide), value, joints_ended ended, Stmt.applications_binding]

theorem joins_result (kind : word.kind = .returnWord) (value : (Phrase.expr m e).Joins ts mid)
    (ended : Ended mid rest) : (Phrase.stmt (.result word e)).Joins (word :: ts) rest := by
  simp only [Phrase.Joins] at value ⊢
  rw [word.joints_plain kind (by decide), value, joints_ended ended, Stmt.applications_result]

theorem joins_expression {first : Token} (value : (Phrase.expr m e).Joins ts mid)
    (ended : Ended mid rest) : (Phrase.stmt (.expression first e)).Joins ts rest := by
  simp only [Phrase.Joins] at value ⊢
  rw [value, joints_ended ended, Stmt.applications_expression]

end

theorem Derivation.joins {phrase : Phrase} {ts rest : List Token} (d : Derivation phrase ts rest) :
    phrase.Joins ts rest := by
  induction d with
  | tighter _ _ inner => exact inner
  | binary _ known _ _ _ left right => exact joins_binary known left right
  | unary _ known _ operand => exact joins_unary known operand
  | call _ _ opens closes _ _ callee arguments => exact joins_call opens closes callee arguments
  | index _ _ opens closes _ _ collection position =>
    exact joins_index opens closes collection position
  | name t kind => exact joins_single kind (by decide) (Expr.applications_name _)
  | integer t kind _ _ => exact joins_single kind (by decide) (Expr.applications_integer t _)
  | string t kind => exact joins_single kind (by decide) (Expr.applications_string t t.text)
  | yes t kind => exact joins_single kind (by decide) (Expr.applications_boolean t true)
  | no t kind => exact joins_single kind (by decide) (Expr.applications_boolean t false)
  | group _ _ opens closes _ inner => exact joins_group opens closes inner
  | array _ _ opens closes _ elements => exact joins_array opens closes elements
  | conditional _ _ _ kind opens closes _ _ condition consequence =>
    exact joins_conditional kind opens closes condition consequence
  | alternative _ _ _ _ kind opens closes otherwise _ _ _ condition consequence last =>
    exact joins_alternative kind opens closes otherwise condition consequence last
  | function _ _ _ kind opens closes _ _ parameters body =>
    exact joins_function kind opens closes parameters body
  | noItems =>
    intro quiet
    rw [joints_front quiet true, Expr.allApplications_nil, Nat.zero_add]
  | items _ _ first further => exact joins_items first further
  | lastItem => rw [Phrase.Joins, Expr.allApplications_nil, Nat.zero_add]
  | nextItem _ kind _ _ next further => exact joins_nextItem kind next further
  | noNames =>
    intro quiet
    rw [joints_front quiet true]
  | names t kind _ further =>
    intro _
    simp only [Phrase.Joins] at further
    rw [t.joints_concluding kind (by decide), further]
  | lastName => rw [Phrase.Joins]
  | nextName comma t separates kind _ further =>
    simp only [Phrase.Joins] at further ⊢
    rw [comma.joints_plain separates (by decide), t.joints_concluding kind (by decide), further]
  | closed _ _ opens closes _ inside => exact joins_closed opens closes inside
  | unclosed _ opens _ inside => exact joins_unclosed opens inside
  | binding _ _ _ kind named assigns _ ended value =>
    exact joins_binding kind named assigns value ended
  | result _ kind _ ended value => exact joins_result kind value ended
  | expression _ ended value => exact joins_expression value ended
  | noStmts => rw [Phrase.Joins, Stmt.allApplications_nil, Nat.zero_add]
  | stmts _ _ first further =>
    simp only [Phrase.Joins] at first further ⊢
    rw [first, further, Stmt.allApplications_cons, Nat.add_assoc]

theorem joints_of_derivesFrom {program : Program} {ts : List Token}
    (derives : program.DerivesFrom ts) :
    joints false (kinds ts) = Stmt.allApplications program.statements := by
  obtain ⟨d⟩ := derives
  exact d.joins

end PrattFrontEnd
