import Astra.Command.Arguments
import Astra.Command.Settings
import Astra.Prompt

/-!
# Runs

What the command does from its arguments to its exit code: it reports on one script, or holds a
session at the prompt when no script is named.
-/

namespace Astra

/-- How a run ends: on its own, or stopped by its arguments. -/
inductive Ending where
  | returned (code : Nat)
  | stopped (code : Nat)
  deriving DecidableEq, Repr

def Ending.code : Ending → Nat
  | returned code => code
  | stopped code => code

/-- What a run leaves behind. -/
structure Transcript where
  ending : Ending
  output : List Char := []
  complaints : List Char := []
  /-- How often a script was asked for. -/
  prompts : Nat := 0
  notes : List Note := []
  verbose : Bool := false

namespace Transcript

def ofStop : Stop → Transcript
  | .help => { ending := .stopped 0, output := Help.text }
  | .fault fault =>
    { ending := .stopped 2
      complaints :=
        Help.usage.toList ++ Help.command.toList ++ ": error: ".toList ++ fault.message ++ ['\n'] }

def ofComplaint (code : Nat) (complaint : List Char) : Transcript :=
  { ending := .returned code, complaints := "error: ".toList ++ complaint ++ ['\n'] }

def ofReport {σ : Type} (report : Report σ) : Transcript :=
  { ending := .returned 0, output := report.text, notes := report.notes }

def ofSession {σ : Type} (session : Prompt.Session (Prompt.Reports σ)) : Transcript :=
  { ending := .returned 0
    output := session.state.text
    prompts := session.messages.length
    notes := session.state.notes ++ session.notes }

/-- Puts earlier notes in front, and drops those that are too detailed. -/
def withJournal (verbose : Bool) (earlier : List Note) (transcript : Transcript) : Transcript :=
  { transcript with
    notes := Journal.filter verbose (earlier ++ transcript.notes)
    verbose }

end Transcript

namespace Settings

def style (settings : Settings) : ReportStyle :=
  { colorize := settings.colorize, policy := Policy.standard.override settings.colors }

/-- The supply of colors: from the seed, or else the one at hand. -/
def supply (settings : Settings) (unseeded : Supply) : Except Breakdown Supply :=
  match settings.seed with
  | none => .ok unseeded
  | some (.number seed) => .ok (.ofSeed seed)
  | some .void => .error .voidSeed

end Settings

def unreadable (path : Path) (reason : List Char) : Transcript :=
  .ofComplaint 1 ("cannot read ".toList ++ path.text ++ ": ".toList ++ reason)

def runScript (disk : Disk) (settings : Settings) (supply : Supply) (path : Path) :
    Except Breakdown Transcript :=
  match disk path with
  | .error .nullByte => .error (.access path .nullByte)
  | .error fault => .ok (unreadable path (fault.message path))
  | .ok bytes =>
    match Text.Utf8.decode bytes with
    | .error fault => .ok (unreadable path fault.message)
    | .ok text =>
      let style := { settings.style with filename := path.text }
      .ok (.ofReport (Report.ofSource style supply (Text.unifyNewlines text)))

def holdSession (settings : Settings) (supply : Supply) (scripts : List (List Char))
    (exit : Prompt.Exit) : Prompt.Session (Prompt.Reports Supply) :=
  .hold (.add settings.style) exit { state := { supply } } scripts

/-- Does what the settings ask for. `scripts` are those that are submitted at the prompt, and `exit`
is how it is left after them. -/
def runSettings (disk : Disk) (scripts : List (List Char)) (unseeded : Supply)
    (settings : Settings) (exit : Prompt.Exit) : Except Breakdown Transcript := do
  let supply ← settings.supply unseeded
  match settings.script with
  | some path => runScript disk settings supply path
  | none => .ok (.ofSession (holdSession settings supply scripts exit))

def runRequest (room : Config.Room) (disk : Disk) (scripts : List (List Char)) (unseeded : Supply)
    (request : Request) (exit : Prompt.Exit := .endOfInput) : Except Breakdown Transcript :=
  let (notes, settings) := Settings.resolve room disk request
  let transcript : Except Breakdown Transcript :=
    match settings with
    | .error (.broken breakdown) => .error breakdown
    | .error (.refused refusal) => .ok (.ofComplaint 2 refusal.message)
    | .ok settings => runSettings disk scripts unseeded settings exit
  transcript.map (.withJournal request.verbose notes)

/-- Runs the command on a machine that has the given room. -/
def run (room : Config.Room) (arguments : List (List Char)) (disk : Disk)
    (scripts : List (List Char)) (unseeded : Supply) (exit : Prompt.Exit := .endOfInput) :
    Except Breakdown Transcript :=
  match Request.ofArguments arguments with
  | .error stop => .ok (.ofStop stop)
  | .ok request => runRequest room disk scripts unseeded request exit

end Astra
