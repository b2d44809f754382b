import PrattFrontEnd.Listing
import PrattFrontEnd.Parser.Conversion
import PrattFrontEnd.Syntax.Json
import PrattFrontEnd.Syntax.Render
import PrattFrontEnd.Text.Space

/-!
Interactive sessions: lines are gathered into entries, and each entry is parsed on its own and shown
in canonical form, as JSON or as a token listing. An entry goes on while its lines hold more opening
than closing braces. A literal that cannot be worked out breaks the whole session off.
-/
namespace PrattFrontEnd

/-- Text put out, what happened in the parser meanwhile, and what broke the session off, if anything
did. -/
structure Response where
  text : String
  log : List Event
  fault : Option Text.TooManyDigits

def Response.say (text : String) : Response := ⟨text, [], none⟩

structure Session where
  room : Nat
  maxDepth : Int
  asJson : Bool
  asTokens : Bool
  lines : List String
  surplus : Int

namespace Session

def begin (room : Nat) (maxDepth : Int) : Session := ⟨room, maxDepth, false, false, [], 0⟩

def greeting : String := "monk REPL. Type 'exit' or 'quit' to leave.\n"

def farewell : String := "Exiting monk REPL.\n"

def prompt (s : Session) : String := if s.lines.isEmpty then ">> " else ".. "

def braceSurplus (line : String) : Int :=
  (line.toList.count '\x7b' : Int) - (line.toList.count '\x7d' : Int)

def leaves (line : String) : Bool := Text.strip line = "exit" || Text.strip line = "quit"

def onOff (b : Bool) : String := if b then "ON" else "OFF"

def present (s : Session) (parsed : Parsed) : String :=
  if parsed.diagnostics ≠ [] then
    "[error] >>> parser errors:\n" ++ String.join (parsed.messages.map fun m => "\t" ++ m ++ "\n")
  else if s.asJson then
    match parsed.program.toJsonWithin s.room with
    | .ok json => json ++ "\n"
    | .error fault => "[error] >>> " ++ fault.message ++ "\n"
  else parsed.program.render ++ "\n"

def evaluate (s : Session) (entry : String) : Response :=
  match readProgram entry s.maxDepth with
  | .error interruption => ⟨"", interruption.log, some interruption.fault⟩
  | .ok parsed => ⟨s.present parsed, parsed.log, none⟩

def enter (s : Session) (entry : String) : Response × Session :=
  if entry = "" || entry.toList.head? = some '#' then (.say "", s)
  else if entry = ":json" then
    (.say ("[mode] >>> JSON output " ++ onOff (!s.asJson) ++ "\n"), { s with asJson := !s.asJson })
  else if entry = ":tokens" then
    (.say ("[mode] >>> Token listing " ++ onOff (!s.asTokens) ++ "\n"),
      { s with asTokens := !s.asTokens })
  else if s.asTokens then (.say (listing entry ++ "\n"), s)
  else (s.evaluate entry, s)

/-- Takes one line. There is no session afterwards when the line leaves it, which only the first
line of an entry can, or when it is broken off. -/
def receive (s : Session) (line : String) : Response × Option Session :=
  if s.lines.isEmpty && leaves line then (.say farewell, none)
  else
    let lines := s.lines ++ [line]
    let surplus := s.surplus + braceSurplus line
    if 0 < surplus then (.say "", some { s with lines, surplus })
    else
      let (response, next) :=
        { s with lines := [], surplus := 0 }.enter (Text.strip ("\n".intercalate lines))
      (response, if response.fault.isSome then none else some next)

def close : Response := .say ("\n" ++ farewell)

/-- The responses to some lines, where a missing line breaks the input off; each ends with the
prompt for the next line, if there is to be one. -/
def respond (s : Session) : Response → List (Option String) → List Response
  | shown, some line :: rest =>
    { shown with text := shown.text ++ s.prompt } ::
      match s.receive line with
      | (response, some next) => next.respond response rest
      | (response, none) => [response]
  | shown, _ => [{ shown with text := shown.text ++ s.prompt }, close]

def runWithin (room : Nat) (maxDepth : Int) (lines : List (Option String)) : List Response :=
  (begin room maxDepth).respond (.say greeting) lines

def run (maxDepth : Int) (lines : List (Option String)) : List Response :=
  runWithin Json.sessionRoom maxDepth lines

end Session

end PrattFrontEnd
