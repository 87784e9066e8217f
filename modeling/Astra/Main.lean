import Astra.Command.Run

/-!
# The command

Reads the files that a run needs, talks to the terminal, and leaves everything else to `run`.
-/

namespace Astra

/-- The fault that an error of the system amounts to. -/
def AccessFault.ofError : IO.Error → AccessFault
  | .permissionDenied .. => .denied
  | .inappropriateType _ 21 _ => .isDirectory
  | .inappropriateType .. => .notDirectory
  | .invalidArgument .. => .nameTooLong
  | _ => .missing

def readPath (path : Path) : IO (Except AccessFault (List UInt8)) := do
  if path.text.contains '\x00' then return .error .nullByte
  try
    let bytes ← IO.FS.readBinFile (String.ofList path.text)
    return .ok bytes.toList
  catch error => return .error (.ofError error)

/-- A disk that knows the given paths. -/
def readPaths (paths : List Path) : IO Disk := do
  let known ← paths.mapM fun path => return (path, ← readPath path)
  return fun path => (known.lookup path).getD (.error .missing)

def printNotes (notes : List Note) : IO Unit :=
  notes.forM fun note => IO.eprintln (note.severity.name ++ " " ++ String.ofList note.message)

def printTranscript (transcript : Transcript) : IO UInt32 := do
  IO.print (String.ofList transcript.output)
  IO.eprint (String.ofList transcript.complaints)
  printNotes transcript.notes
  return transcript.ending.code.toUInt32

def printBreakdown (breakdown : Breakdown) : IO UInt32 := do
  IO.eprintln (String.ofList breakdown.message)
  return 1

/-- Presses keys until a script is submitted or the prompt is left, and takes further keys from the
terminal when they run out. The keys after a submission are left for the next script. -/
partial def askScript (written : List Char) (keys : List Prompt.Key) :
    IO (Except Prompt.Exit (List Char × List Prompt.Key)) := do
  match keys with
  | [] =>
    (← IO.getStdout).flush
    let typed ← (← IO.getStdin).getLine
    if typed.isEmpty then return .error .endOfInput
    askScript written (Prompt.Key.ofTerminal typed.toList)
  | key :: rest =>
    match Prompt.press written key with
    | .submitted script => return .ok (script, rest)
    | .left exit => return .error exit
    | .editing written =>
      if key = .newline then
        IO.print (String.ofList (Prompt.continuation 3 (written.count '\n') false))
      askScript written rest

def printReport (verbose : Bool) (report : Report Supply) : IO Unit := do
  IO.print (String.ofList report.text)
  printNotes (Journal.filter verbose report.notes)

/-- Reports on script after script until the prompt is left. -/
partial def converse (style : ReportStyle) (verbose : Bool)
    (session : Prompt.Session (Prompt.Reports Supply)) (keys : List Prompt.Key) : IO Unit := do
  let session := session.ask
  IO.print (String.ofList Prompt.message)
  match ← askScript [] keys with
  | .error exit => printNotes (Journal.filter verbose (session.leave exit).notes)
  | .ok (script, keys) =>
    let next := session.submit (.add style) script
    (next.state.made.drop session.state.made.length).forM (printReport verbose)
    converse style verbose next keys

def randomSupply : IO Supply := do
  let bytes ← IO.getRandomBytes 8
  return .ofSeed (bytes.toList.foldl (fun n b => 256 * n + b.toNat) 0 : Nat)

end Astra

open Astra in
def main (arguments : List String) : IO UInt32 := do
  match Request.ofArguments (arguments.map String.toList) with
  | .error stop => printTranscript (.ofStop stop)
  | .ok request =>
    let script := Settings.pathOf request.script
    let disk ← readPaths (Settings.configPath request :: script.toList)
    let unseeded ← randomSupply
    match script, Settings.resolve .unbounded disk request with
    | none, (notes, .ok settings) =>
      printNotes (Journal.filter request.verbose notes)
      match settings.supply unseeded with
      | .ok supply =>
        converse settings.style request.verbose { state := { supply } } []
        return 0
      | .error breakdown => printBreakdown breakdown
    | _, _ =>
      match runRequest .unbounded disk [] unseeded request with
      | .ok transcript => printTranscript transcript
      | .error breakdown => printBreakdown breakdown
