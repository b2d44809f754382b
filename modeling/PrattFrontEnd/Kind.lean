/-!
Token kinds. Every kind has a printed name, used in diagnostics and listings; the name of an
operator or delimiter is its spelling. A token that did not come from the scanner may carry a kind
with any other name.
-/
namespace PrattFrontEnd

inductive Kind where
  | eof | illegal
  | identifier | integer | string
  | assign | plus | minus | bang | asterisk | slash
  | less | greater | equal | notEqual
  | comma | semicolon
  | leftParen | rightParen | leftBrace | rightBrace | leftBracket | rightBracket
  | functionWord | letWord | trueWord | falseWord | ifWord | elseWord | returnWord
  | other (name : String)
  deriving DecidableEq, Repr

namespace Kind

def name : Kind → String
  | eof => "EOF"
  | illegal => "ILLEGAL"
  | identifier => "IDENT"
  | integer => "INT"
  | string => "STRING"
  | assign => "="
  | plus => "+"
  | minus => "-"
  | bang => "!"
  | asterisk => "*"
  | slash => "/"
  | less => "<"
  | greater => ">"
  | equal => "=="
  | notEqual => "!="
  | comma => ","
  | semicolon => ";"
  | leftParen => "("
  | rightParen => ")"
  | leftBrace => "\x7b"
  | rightBrace => "\x7d"
  | leftBracket => "["
  | rightBracket => "]"
  | functionWord => "FUNCTION"
  | letWord => "LET"
  | trueWord => "TRUE"
  | falseWord => "FALSE"
  | ifWord => "IF"
  | elseWord => "ELSE"
  | returnWord => "RETURN"
  | other name => name

def native : List Kind :=
  [eof, illegal, identifier, integer, string, assign, plus, minus, bang, asterisk, slash, less,
    greater, equal, notEqual, comma, semicolon, leftParen, rightParen, leftBrace, rightBrace,
    leftBracket, rightBracket, functionWord, letWord, trueWord, falseWord, ifWord, elseWord,
    returnWord]

/-- The kind with a given name, foreign only when no kind of the language has that name. -/
def ofName (name : String) : Kind :=
  (native.find? (·.name == name)).getD (other name)

theorem ofName_name {k : Kind} (member : k ∈ native) : ofName k.name = k := by
  revert k
  decide

def ofOperator? : List Char → Option Kind
  | ['='] => some assign
  | ['+'] => some plus
  | ['-'] => some minus
  | ['!'] => some bang
  | ['*'] => some asterisk
  | ['/'] => some slash
  | ['<'] => some less
  | ['>'] => some greater
  | ['=', '='] => some equal
  | ['!', '='] => some notEqual
  | [','] => some comma
  | [';'] => some semicolon
  | ['('] => some leftParen
  | [')'] => some rightParen
  | ['\x7b'] => some leftBrace
  | ['\x7d'] => some rightBrace
  | ['['] => some leftBracket
  | [']'] => some rightBracket
  | _ => none

theorem toList_name_of_ofOperator? {spelling : List Char} {k : Kind}
    (known : ofOperator? spelling = some k) : k.name.toList = spelling := by
  unfold ofOperator? at known
  split at known <;> cases known <;> rfl

def operators : List Kind :=
  [assign, plus, minus, bang, asterisk, slash, less, greater, equal, notEqual, comma, semicolon,
    leftParen, rightParen, leftBrace, rightBrace, leftBracket, rightBracket]

theorem mem_operators_of_ofOperator? {spelling : List Char} {k : Kind}
    (known : ofOperator? spelling = some k) : k ∈ operators := by
  unfold ofOperator? at known
  split at known <;> cases known <;> decide

def ofWord : String → Kind
  | "fn" => functionWord
  | "let" => letWord
  | "true" => trueWord
  | "false" => falseWord
  | "if" => ifWord
  | "else" => elseWord
  | "return" => returnWord
  | _ => identifier

end Kind

end PrattFrontEnd
