import PrattFrontEnd.CommandLine.Disk
import PrattFrontEnd.CommandLine.Options
import PrattFrontEnd.Session
import PrattFrontEnd.Text.Utf8

/-!
What the command does: read a source, parse it or list its tokens, report diagnostics, and put the
result out. A run on a source is a course of effects, one behind the other, that ends with a status
or with a fault; its report says what becomes of that where some outputs may be refused.
-/
namespace PrattFrontEnd.CommandLine

structure Report where
  status : Nat
  stdout : String
  stderr : String
  written : Option (String × String)
  deriving DecidableEq, Repr

inductive Fault where
  | unsupported
  | access (path : String) (fault : AccessFault)
  | undecodable (fault : Text.Utf8Fault)
  | unreadable (fault : Text.TooManyDigits)
  | json (fault : Json.Fault)
  deriving DecidableEq, Repr

def Fault.message : Fault → String
  | unsupported => "Only .monk files are supported."
  | access path fault => fault.message path
  | undecodable fault => fault.message
  | unreadable fault => fault.message
  | json fault => fault.message

def line (text : String) : String := text ++ "\n"

def lines (texts : List String) : String := String.join (texts.map line)

def logLine (e : Event) : String := line ("monk.monk_parser - DEBUG - " ++ e.message)

def logged (events : List Event) : String := String.join (events.map logLine)

def Report.usage (error : UsageError) : Report :=
  ⟨2, "", CommandLine.usage ++ line ("monk: error: " ++ error.message), none⟩

/-- The source text: the argument itself, or the content of the file it names. -/
def load (disk : Disk) (o : Options) (source : String) : Except Fault String :=
  if o.string then .ok source
  else if ".monk".toList.isSuffixOf source.toList then
    match disk.read source with
    | .error fault => .error (.access source fault)
    | .ok bytes =>
      match Text.decodeUtf8 bytes with
      | .error fault => .error (.undecodable fault)
      | .ok text => .ok (String.ofList (Text.unifyLineEnds text))
  else .error .unsupported

structure Work where
  title : String
  diagnostics : List Diagnostic
  log : List Event
  text : Except Fault String

def rendition (room : Nat) (o : Options) (program : Program) : String × Except Fault String :=
  if o.json then ("AST", (program.toJsonWithin room).mapError .json)
  else ("Program", .ok program.render)

def work (room : Nat) (o : Options) (source : String) : Work :=
  if o.tokens then ⟨"Tokens", [], [], .ok (listing source)⟩
  else match readProgram source o.maxDepth with
    | .error interruption => ⟨"", [], interruption.log, .error (.unreadable interruption.fault)⟩
    | .ok parsed =>
      let (title, text) := rendition room o parsed.program
      ⟨title, parsed.diagnostics, parsed.log, text⟩

def Work.status (w : Work) : Nat := if w.diagnostics = [] then 0 else 1

def banner : String := String.ofList (List.replicate 20 '=')

def framed (title text : String) : String :=
  lines [banner, title, banner, text, banner, ""]

/-- The file to write to; an empty name is none. -/
def Options.target (o : Options) : Option String := o.out.filter (· ≠ "")

/-- One thing that a run does: it puts text out as its result or beside it, logs, or writes a file. -/
inductive Effect where
  | shows (text : String)
  | tells (text : String)
  | logs (text : String)
  | writes (target text : String)
  deriving DecidableEq, Repr

namespace Effect

def shown : Effect → String
  | shows text => text
  | _ => ""

def told : Effect → String
  | tells text | logs text => text
  | _ => ""

def written? : Effect → Option (String × String)
  | writes target text => some (target, text)
  | _ => none

end Effect

/-- What a run on a source does, as long as nothing stops it, and how it ends then. -/
structure Course where
  effects : List Effect
  outcome : Except Fault Nat

def Work.traced (w : Work) (verbose : Bool) : List Effect :=
  if verbose then w.log.map fun e => .logs (logLine e) else []

def Work.reported (w : Work) (verbose : Bool) : List Effect :=
  w.diagnostics.map (fun d => .tells (line ("parser error: " ++ d.message))) ++
    if verbose && w.diagnostics ≠ [] then
      [.logs (line ("monk.monk_cli - INFO - " ++ toString w.diagnostics.length ++
        " parser error(s)"))]
    else []

def Work.displayed (w : Work) (o : Options) (text : String) : List Effect :=
  if o.pretty then [.shows (framed w.title text)]
  else if o.target.isSome then [] else [.shows (line text)]

def Effect.noted (target : String) : Effect := .shows (line ("(wrote to " ++ target ++ ")"))

def Work.front (w : Work) (o : Options) (text : String) : List Effect :=
  w.traced o.verbose ++ w.reported o.verbose ++ w.displayed o text

def blockage (disk : Disk) (o : Options) : Option Fault :=
  o.target.bind fun target => (disk.obstacle target).map (.access target)

/-- What is done about the file, if there is one to be written. It is noted between banners only. -/
def delivery (o : Options) (text : String) : List Effect :=
  match o.target with
  | none => []
  | some target => .writes target (line text) :: if o.pretty then [.noted target] else []

def course (room : Nat) (disk : Disk) (o : Options) (source : String) : Course :=
  match load disk o source with
  | .error fault => ⟨[], .error fault⟩
  | .ok source =>
    let w := work room o source
    match w.text with
    | .error fault => ⟨w.traced o.verbose, .error fault⟩
    | .ok text =>
      match blockage disk o with
      | some fault => ⟨w.front o text, .error fault⟩
      | none => ⟨w.front o text ++ delivery o text, .ok w.status⟩

/-- What cannot be put out, with the reason, by what a run has done before. Files are not concerned:
what has been opened for writing is written. -/
structure Console where
  refusal? : List Effect → Effect → Option String

namespace Console

def takesAll : Console := ⟨fun _ _ => none⟩

/-- What has been done after one more effect, or why the run stops at it. The log goes without the lines
that are refused. -/
def attempt (console : Console) (done : List Effect) (effect : Effect) :
    Except String (List Effect) :=
  match effect, console.refusal? done effect with
  | .writes _ _, _ | _, none => .ok (done ++ [effect])
  | .logs _, some _ => .ok done
  | _, some reason => .error reason

def perform (console : Console) (done : List Effect) : List Effect → List Effect × Option String
  | [] => (done, none)
  | effect :: effects =>
    match console.attempt done effect with
    | .ok done => perform console done effects
    | .error reason => (done, some reason)

def report (status : Nat) (done : List Effect) : Report where
  status := status
  stdout := String.join (done.map Effect.shown)
  stderr := String.join (done.map Effect.told)
  written := done.findSome? Effect.written?

/-- The report of a run that something has stopped. That is told, and if it is refused as well, the
run breaks down. -/
def stopped (console : Console) (done : List Effect) (message : String) : Report :=
  let last : Effect := .tells (line ("error: " ++ message))
  match console.refusal? done last with
  | none => report 2 (done ++ [last])
  | some _ => report 1 done

def carryOut (console : Console) (c : Course) : Report :=
  match console.perform [] c.effects, c.outcome with
  | (done, some reason), _ => console.stopped done reason
  | (done, none), .error fault => console.stopped done fault.message
  | (done, none), .ok status => report status done

end Console

def process (room : Nat) (disk : Disk) (o : Options) (source : String) : Report :=
  Console.takesAll.carryOut (course room disk o source)

inductive Task where
  | session (maxDepth : Int) (verbose : Bool)
  | process (o : Options) (source : String)
  | stop (report : Report)

/-- Without arguments, without a source, or when asked for, there is a session. -/
def taskUnder (convention : Convention) (arguments : List String) : Task :=
  if arguments = [] then .session defaultMaxDepth false
  else match readOptions convention arguments with
    | .error .help => .stop ⟨0, help, "", none⟩
    | .error (.usage error) => .stop (.usage error)
    | .ok o =>
      match o.source with
      | none => .session o.maxDepth o.verbose
      | some source => if o.repl then .session o.maxDepth o.verbose else .process o source

def task (arguments : List String) : Task := taskUnder .former arguments

/-- A session as a run of the command. A session that is broken off is one without the trace that is
left of it on the second output. -/
def Report.ofSession (responses : List Response) (verbose : Bool) : Report :=
  ⟨if responses.any fun r => r.fault.isSome then 1 else 0,
    String.join (responses.map Response.text),
    if verbose then String.join (responses.map fun r => logged r.log) else "", none⟩

/-- What a run depends on besides its arguments, the disk and its input: how arguments are read, which
outputs are taken, and how deep JSON may nest in a run on a source and in a session. -/
structure Host where
  convention : Convention
  console : Console
  room : Nat
  sessionRoom : Nat

def Host.usual : Host := ⟨.former, .takesAll, Json.commandRoom, Json.sessionRoom⟩

/-- A run of the command with some arguments, a disk, and the lines that can be read. What a session or
a usage message puts out is taken. -/
def runOn (host : Host) (disk : Disk) (arguments : List String) (input : List (Option String)) :
    Report :=
  match taskUnder host.convention arguments with
  | .session maxDepth verbose =>
    .ofSession (Session.runWithin host.sessionRoom maxDepth input) verbose
  | .process o source => host.console.carryOut (course host.room disk o source)
  | .stop report => report

def run (disk : Disk) (arguments : List String) (input : List (Option String)) : Report :=
  runOn .usual disk arguments input

end PrattFrontEnd.CommandLine
