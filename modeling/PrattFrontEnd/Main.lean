import PrattFrontEnd.CommandLine.Run

/-!
The command itself: everything is decided by `CommandLine.task` and what it leads to, and carried
out here.
-/
namespace PrattFrontEnd.CommandLine

def accessFault : IO.Error → AccessFault
  | .noFileOrDirectory .. => .notFound
  | .permissionDenied .. => .denied
  | .inappropriateType .. => .isFolder
  | .resourceExhausted .. => .nameTooLong
  | .invalidArgument .. => .badName
  | _ => .notFound

def attempt (action : IO α) : IO (Except AccessFault α) := do
  try return .ok (← action) catch error => return .error (accessFault error)

def present (report : Report) : IO UInt32 := do
  (← IO.getStdout).putStr report.stdout
  (← IO.getStderr).putStr report.stderr
  return UInt32.ofNat report.status

/-- Works out the report first as if the file could be written, then writes the file, and works it
out again if that fails. -/
def carryOut (o : Options) (source : String) : IO UInt32 := do
  let content ← attempt (IO.FS.readBinFile source)
  let disk : Disk := ⟨fun _ => content.map fun bytes => bytes.toList, fun _ => none⟩
  let report := process Json.commandRoom disk o source
  match report.written with
  | none => present report
  | some (target, text) =>
    match ← attempt (IO.FS.writeFile target text) with
    | .ok () => present report
    | .error fault =>
      present (process Json.commandRoom { disk with obstacle := fun _ => some fault } o source)

partial def converse (verbose : Bool) (session : Session) : IO UInt32 := do
  let stdout ← IO.getStdout
  stdout.putStr session.prompt
  stdout.flush
  let read ← (← IO.getStdin).getLine
  if read.isEmpty then
    stdout.putStr Session.close.text
    return 0
  let (response, next) := session.receive (read.dropSuffix "\n").toString
  if verbose then (← IO.getStderr).putStr (logged response.log)
  stdout.putStr response.text
  match response.fault, next with
  | some fault, _ =>
    (← IO.getStderr).putStrLn fault.message
    return 1
  | none, some session => converse verbose session
  | none, none => return 0

def carryOutTask : Task → IO UInt32
  | .session maxDepth verbose => do
    (← IO.getStdout).putStr Session.greeting
    converse verbose (Session.begin Json.sessionRoom maxDepth)
  | .process o source => carryOut o source
  | .stop report => present report

end PrattFrontEnd.CommandLine

def main (arguments : List String) : IO UInt32 :=
  PrattFrontEnd.CommandLine.carryOutTask (PrattFrontEnd.CommandLine.task arguments)
