import PrattFrontEnd.Parser.Parse
import PrattFrontEnd.Text.Numeral
import PrattFrontEnd.Text.Quoted

/-!
Command line arguments. Each argument is first told apart by its spelling alone; then they are taken
from left to right, and the first thing wrong with them decides. How an argument is read that several
short switches share has changed once, and either way is there.
-/
namespace PrattFrontEnd.CommandLine

inductive Switch where
  | help | string | json | tokens | out | pretty | maxDepth | repl | verbose
  deriving DecidableEq, Repr

namespace Switch

def spellings : List (String × Switch) :=
  [("-h", help), ("--help", help), ("-s", string), ("--string", string), ("-j", json),
    ("--json", json), ("-t", tokens), ("--tokens", tokens), ("-o", out), ("--out", out),
    ("-p", pretty), ("--pretty", pretty), ("--max-depth", maxDepth), ("--repl", repl),
    ("--verbose", verbose)]

def ofSpelling? (spelling : String) : Option Switch := spellings.lookup spelling

def title (s : Switch) : String :=
  "/".intercalate ((spellings.filter (·.2 = s)).map (·.1))

def takesValue : Switch → Bool
  | out | maxDepth => true
  | _ => false

end Switch

/-- How short switches share an argument. Formerly an equals sign behind the first of them was passed
over, one behind a later one was a part of the value, and a character that is no switch was an error.
Now an equals sign stands before a value wherever it is, and with a character that is no switch the
rest of the argument is left over. -/
inductive Convention where
  | former | current
  deriving DecidableEq, Repr

/-- What stands in the same argument as a switch: nothing, text behind a short switch, which is its
value or spells more short switches, or a value behind an equals sign. -/
inductive Attached where
  | none
  | joined (text : List Char)
  | assigned (value : List Char)
  deriving DecidableEq, Repr

inductive Word where
  | plain
  | separator
  | switch (s : Switch) (attached : Attached)
  | unknown
  deriving DecidableEq, Repr

inductive UsageError where
  | ambiguous (argument : String) (candidates : List String)
  | missingValue (s : Switch)
  | unwantedValue (s : Switch) (value : String)
  | badDepth (value : String)
  | depthOutOfRange (depth : Int)
  | unrecognized (arguments : List String)
  deriving DecidableEq, Repr

def depthLimit : Int := 150

inductive DepthFault where
  | notAnInteger (value : String)
  | tooManyDigits (fault : Text.TooManyDigits)
  | outOfRange (depth : Int)
  deriving DecidableEq, Repr

/-- A value is shown with its first two hundred characters, the quote included. -/
def DepthFault.message : DepthFault → String
  | notAnInteger value =>
    "invalid literal for int() with base 10: " ++
      String.ofList ((Text.quotedChars value.toList).take 200)
  | tooManyDigits fault => fault.message
  | outOfRange depth =>
    "must be between 1 and " ++ toString depthLimit ++ ", got " ++ toString depth

def readDepth (value : String) : Except DepthFault Int :=
  match Text.tooMany? (Text.digitCount value.toList), Text.integer? value.toList with
  | some fault, _ => .error (.tooManyDigits fault)
  | none, none => .error (.notAnInteger value)
  | none, some depth =>
    if 1 ≤ depth ∧ depth ≤ depthLimit then .ok depth else .error (.outOfRange depth)

def UsageError.message : UsageError → String
  | ambiguous argument candidates =>
    "ambiguous option: " ++ argument ++ " could match " ++ ", ".intercalate candidates
  | missingValue s => "argument " ++ s.title ++ ": expected one argument"
  | unwantedValue s value =>
    "argument " ++ s.title ++ ": ignored explicit argument " ++ Text.quoted value
  | badDepth value =>
    "argument " ++ Switch.maxDepth.title ++ ": invalid max_depth_arg value: " ++ Text.quoted value
  | depthOutOfRange depth =>
    "argument " ++ Switch.maxDepth.title ++ ": " ++ (DepthFault.outOfRange depth).message
  | unrecognized arguments => "unrecognized arguments: " ++ " ".intercalate arguments

namespace Word

def divideAtEquals (text : List Char) : List Char × Option (List Char) :=
  match text.dropWhile (· ≠ '=') with
  | [] => (text, Option.none)
  | _ :: value => (text.takeWhile (· ≠ '='), some value)

/-- Digits, or digits with a point before the last of them, behind a minus sign. A line feed at the
end does not count. -/
def isNegativeNumber (text : List Char) : Bool :=
  let isDecimal (c : Char) : Bool := (Text.decimalValue? c).isSome
  let isNumber (digits : List Char) : Bool :=
    match digits.dropWhile isDecimal with
    | [] => digits ≠ []
    | '.' :: places => places ≠ [] && places.all isDecimal
    | _ => false
  match text with
  | '-' :: digits => isNumber digits || (digits.getLast? = some '\n' && isNumber digits.dropLast)
  | _ => false

def ofUnknown (text : List Char) : Word :=
  if isNegativeNumber text || text.contains ' ' then plain else unknown

/-- A long switch may be cut short as long as it is clear which one is meant. -/
def ofLong (argument : String) : Except UsageError Word :=
  let (name, value) := divideAtEquals argument.toList
  match Switch.spellings.filter fun (spelling, _) => name.isPrefixOf spelling.toList with
  | [] => .ok (ofUnknown argument.toList)
  | [(_, s)] => .ok (.switch s ((value.map .assigned).getD .none))
  | candidates => .error (.ambiguous argument (candidates.map (·.1)))

def behindEquals (convention : Convention) (isLong : Bool) (value : List Char) : Attached :=
  if convention = .former && !isLong && value ≠ [] then .joined value else .assigned value

def classify (convention : Convention) (argument : String) : Except UsageError Word :=
  match argument.toList with
  | ['-', '-'] => .ok separator
  | '-' :: c :: rest =>
    let text := '-' :: c :: rest
    let (name, value) := divideAtEquals text
    match Switch.ofSpelling? argument, Switch.ofSpelling? (String.ofList name), value with
    | some s, _, _ => .ok (.switch s .none)
    | none, some s, some value => .ok (.switch s (behindEquals convention (c = '-') value))
    | none, _, _ =>
      if c = '-' then ofLong argument
      else match Switch.ofSpelling? (String.ofList ['-', c]) with
        | some s => .ok (.switch s (.joined rest))
        | none => .ok (ofUnknown text)
  | _ => .ok plain

def isSwitch : Word → Bool
  | switch .. | unknown => true
  | plain | separator => false

end Word

def classifyAll (convention : Convention) :
    List String → Except UsageError (List (String × Word))
  | [] => .ok []
  | argument :: arguments => do
    let word ← Word.classify convention argument
    if word = .separator then
      return (argument, .separator) :: arguments.map fun a => (a, .plain)
    else
      return (argument, word) :: (← classifyAll convention arguments)

structure Options where
  source : Option String
  string : Bool
  json : Bool
  tokens : Bool
  out : Option String
  pretty : Bool
  maxDepth : Int
  repl : Bool
  verbose : Bool
  deriving DecidableEq, Repr

namespace Options

def default : Options where
  source := none
  string := false
  json := false
  tokens := false
  out := none
  pretty := false
  maxDepth := defaultMaxDepth
  repl := false
  verbose := false

end Options

inductive Stop where
  | help
  | usage (error : UsageError)
  deriving DecidableEq, Repr

def apply (o : Options) : Switch × String → Except Stop Options
  | (.help, _) => .error .help
  | (.string, _) => .ok { o with string := true }
  | (.json, _) => .ok { o with json := true }
  | (.tokens, _) => .ok { o with tokens := true }
  | (.pretty, _) => .ok { o with pretty := true }
  | (.repl, _) => .ok { o with repl := true }
  | (.verbose, _) => .ok { o with verbose := true }
  | (.out, value) => .ok { o with out := some value }
  | (.maxDepth, value) =>
    match readDepth value with
    | .ok depth => .ok { o with maxDepth := depth }
    | .error (.notAnInteger _) | .error (.tooManyDigits _) => .error (.usage (.badDepth value))
    | .error (.outOfRange depth) => .error (.usage (.depthOutOfRange depth))

/-- The switches in one argument: those that are complete with their values, the last one if it still
needs a value, and what is left over as an argument of its own. -/
structure Cluster where
  switches : List (Switch × String)
  needsValue : Option Switch
  leftOver : Option String

namespace Cluster

def single (s : Switch) : Cluster :=
  if s.takesValue then ⟨[], some s, none⟩ else ⟨[(s, "")], none, none⟩

def cons (s : Switch) (c : Cluster) : Cluster := { c with switches := (s, "") :: c.switches }

def ofAssigned (s : Switch) (value : List Char) : Except UsageError Cluster :=
  if s.takesValue then .ok ⟨[(s, String.ofList value)], none, none⟩
  else .error (.unwantedValue s (String.ofList value))

/-- Reads a short switch with some text behind it. Short switches without values may share an
argument, where the last of them may have a value. -/
def ofJoined (convention : Convention) (s : Switch) : List Char → Except UsageError Cluster
  | [] => .ok (single s)
  | c :: rest =>
    if s.takesValue then ofAssigned s (c :: rest)
    else match Switch.ofSpelling? (String.ofList ['-', c]), convention with
      | some next, .former => (ofJoined convention next rest).map (cons s)
      | none, .former => .error (.unwantedValue s (String.ofList (c :: rest)))
      | some next, .current =>
        match rest with
        | '=' :: value => (ofAssigned next value).map (cons s)
        | rest => (ofJoined convention next rest).map (cons s)
      | none, .current =>
        if c = '-' then .error (.unwantedValue s (String.ofList (c :: rest)))
        else .ok ⟨[(s, "")], none, some (String.ofList ('-' :: c :: rest))⟩

def ofSwitch (convention : Convention) (s : Switch) : Attached → Except UsageError Cluster
  | .none => .ok (single s)
  | .joined text => ofJoined convention s text
  | .assigned value => ofAssigned s value

end Cluster

/-- Deals with arguments among which no switch is left. The first one is the source, unless there is
one already; a separator next to it disappears. -/
def finish (o : Options) (extras : List String) (words : List (String × Word)) :
    Options × List String :=
  match o.source, words with
  | some _, words => (o, extras ++ words.map (·.1))
  | none, [] | none, [(_, .separator)] => (o, extras)
  | none, (_, .separator) :: (source, _) :: words | none, (source, _) :: (_, .separator) :: words
  | none, (source, _) :: words => ({ o with source := some source }, extras ++ words.map (·.1))

def take (convention : Convention) (o : Options) (extras : List String) :
    List (String × Word) → Except Stop (Options × List String)
  | [] => .ok (finish o extras [])
  | (argument, .separator) :: words => .ok (finish o extras ((argument, .separator) :: words))
  | (argument, .unknown) :: words => take convention o (extras ++ [argument]) words
  | (argument, .plain) :: words =>
    if words.any fun w => w.2.isSwitch then
      match o.source with
      | none => take convention { o with source := some argument } extras words
      | some _ => take convention o (extras ++ [argument]) words
    else .ok (finish o extras ((argument, .plain) :: words))
  | (_, .switch s attached) :: words =>
    match Cluster.ofSwitch convention s attached with
    | .error error => .error (.usage error)
    | .ok c =>
      match c.needsValue, words with
      | none, words => do
        take convention (← c.switches.foldlM apply o) (extras ++ c.leftOver.toList) words
      | some s, (value, .plain) :: words => do
        take convention (← (c.switches ++ [(s, value)]).foldlM apply o) extras words
      | some s, _ => .error (.usage (.missingValue s))

def readOptions (convention : Convention) (arguments : List String) : Except Stop Options := do
  let words ← (classifyAll convention arguments).mapError .usage
  let (options, extras) ← take convention .default [] words
  if extras = [] then return options else throw (.usage (.unrecognized extras))

def usage : String :=
  "usage: monk [-h] [-s] [-j] [-t] [-o OUTFILE] [-p] [--max-depth MAX_DEPTH]\n" ++
  "            [--repl] [--verbose]\n" ++
  "            [source]\n"

def help : String :=
  usage ++ "\n" ++
  "positional arguments:\n" ++
  "  source                Filename or raw source (with -s)\n" ++
  "\n" ++
  "options:\n" ++
  "  -h, --help            show this help message and exit\n" ++
  "  -s, --string          Interpret source as literal string\n" ++
  "  -j, --json            Print AST as JSON\n" ++
  "  -t, --tokens          Print the token stream and stop\n" ++
  "  -o OUTFILE, --out OUTFILE\n" ++
  "                        Output to file\n" ++
  "  -p, --pretty          Show output with banners\n" ++
  "  --max-depth MAX_DEPTH\n" ++
  "                        Maximum expression nesting depth, 1..150 (default:\n" ++
  "                        100)\n" ++
  "  --repl                Launch interactive REPL instead of parsing\n" ++
  "  --verbose             Enable debug logging\n"

end PrattFrontEnd.CommandLine
