import Astra.Text.Lines
import Astra.Text.Writing

/-!
# Arguments

The words after the name of the command. Every word is sorted first: it is an operand, a cluster of
one-letter switches, a long switch, possibly shortened, or unknown. Then the words are taken in
turn; the first fault ends it. The command also says how it is to be used.
-/

namespace Astra

inductive Switch where
  | help | plain | config | seed | verbose
  deriving DecidableEq, Repr

namespace Switch

def all : List Switch := [help, plain, config, seed, verbose]

def letter? : Switch → Option Char
  | help => some 'h'
  | plain => some 'p'
  | config => none
  | seed => none
  | verbose => some 'v'

def longName : Switch → String
  | help => "--help"
  | plain => "--plain"
  | config => "--config"
  | seed => "--seed"
  | verbose => "--verbose"

def takesValue : Switch → Bool
  | config | seed => true
  | help | plain | verbose => false

def spellings (switch : Switch) : List Char :=
  match switch.letter? with
  | some c => ['-', c, '/'] ++ switch.longName.toList
  | none => switch.longName.toList

def ofLetter? (c : Char) : Option Switch := all.find? (·.letter? = some c)

/-- The switches whose long name begins with the given text. -/
def abbreviatedBy (text : List Char) : List Switch :=
  all.filter fun switch => text.isPrefixOf switch.longName.toList

end Switch

inductive UsageFault where
  | ambiguous (word : List Char) (candidates : List Switch)
  | ignoredValue (switch : Switch) (value : List Char)
  | missingValue (switch : Switch)
  | notWhole (switch : Switch) (value : List Char)
  | unrecognized (words : List (List Char))
  deriving DecidableEq, Repr

namespace UsageFault

def onSwitch (switch : Switch) (complaint : List Char) : List Char :=
  "argument ".toList ++ switch.spellings ++ ": ".toList ++ complaint

def message : UsageFault → List Char
  | ambiguous word candidates =>
    "ambiguous option: ".toList ++ word ++ " could match ".toList ++
      List.intercalate ", ".toList (candidates.map (·.longName.toList))
  | ignoredValue switch value =>
    onSwitch switch ("ignored explicit argument ".toList ++ Text.quoted value)
  | missingValue switch => onSwitch switch "expected one argument".toList
  | notWhole switch value => onSwitch switch ("invalid int value: ".toList ++ Text.quoted value)
  | unrecognized words =>
    "unrecognized arguments: ".toList ++ List.intercalate [' '] words

end UsageFault

inductive Word where
  | operand (text : List Char)
  /-- The word after which all others are operands. -/
  | terminator
  /-- A one-letter switch and what is written right after it. -/
  | cluster (switch : Switch) (tail : List Char)
  /-- A long switch and the value after an equals sign. -/
  | long (switch : Switch) (value : Option (List Char))
  | unknown (text : List Char)
  deriving DecidableEq, Repr

namespace Word

/-- Whether digits, or a point with digits after it and perhaps before it, follow the sign. A line
feed may end the word. -/
def isNegativeNumber : List Char → Bool
  | '-' :: rest =>
    let body := if rest.getLast? = some '\n' then rest.dropLast else rest
    match body.dropWhile Text.isDecimal with
    | [] => body ≠ []
    | '.' :: fraction => fraction ≠ [] && fraction.all Text.isDecimal
    | _ => false
  | _ => false

/-- A word that begins with a dash and names no switch. -/
def dashed (text : List Char) : Word :=
  if isNegativeNumber text || text.contains ' ' then .operand text else .unknown text

/-- The parts of a word around its first equals sign. -/
def splitValue (text : List Char) : List Char × Option (List Char) :=
  match text.dropWhile (· ≠ '=') with
  | [] => (text, none)
  | _ :: value => (text.takeWhile (· ≠ '='), some value)

def sort (text : List Char) : Except UsageFault Word :=
  match text with
  | '-' :: '-' :: _ =>
    let (name, value) := splitValue text
    match Switch.abbreviatedBy name with
    | [] => .ok (dashed text)
    | [switch] => .ok (.long switch value)
    | candidates => .error (.ambiguous text candidates)
  | '-' :: c :: tail =>
    match Switch.ofLetter? c with
    | some switch => .ok (.cluster switch tail)
    | none => .ok (dashed text)
  | _ => .ok (.operand text)

/-- Sorts all words; the first ambiguous one is a fault. -/
def sortAll : List (List Char) → Except UsageFault (List Word)
  | [] => .ok []
  | text :: rest =>
    -- nothing after the terminator is looked at, so nothing there is ambiguous
    if text = "--".toList then .ok (.terminator :: rest.map .operand)
    else do
      let word ← sort text
      return word :: (← sortAll rest)

end Word

/-- What colors are to be grown from. A seed can be given that is none. -/
inductive Seed where
  | number (n : Int)
  | void
  deriving DecidableEq, Repr

structure Request where
  script : Option (List Char) := none
  plain : Bool := false
  config : Option (List Char) := none
  seed : Option Seed := none
  verbose : Bool := false
  deriving DecidableEq, Repr

inductive Stop where
  | help
  | fault (fault : UsageFault)
  deriving DecidableEq, Repr

/-- A request while the words are taken. -/
structure Intake where
  request : Request := {}
  /-- The words that found no use. -/
  extras : List (List Char) := []
  /-- The switch whose value must be the next word. -/
  awaiting : Option Switch := none
  /-- Whether the last word was the script. -/
  scriptLast : Bool := false

namespace Intake

def addExtra (word : List Char) (intake : Intake) : Intake :=
  { intake with extras := intake.extras ++ [word] }

def flip (switch : Switch) (intake : Intake) : Except Stop Intake :=
  match switch with
  | .help => .error .help
  | .plain => .ok { intake with request.plain := true }
  | .verbose => .ok { intake with request.verbose := true }
  | .config | .seed => .error (.fault (.missingValue switch))

def flipAll : List Switch → Intake → Except Stop Intake
  | [], intake => .ok intake
  | switch :: rest, intake => do flipAll rest (← intake.flip switch)

def seedOf (value : List Char) : Except Stop Seed :=
  match Text.Numeral.read value with
  | .ok n => .ok (.number n)
  | .error _ => .error (.fault (.notWhole .seed value))

/-- Takes a switch with its value. The terminator as a value stands for nothing: it names no
configuration file, and as a seed it is void. -/
def assign (switch : Switch) (value : List Char) (intake : Intake) : Except Stop Intake :=
  let isTerminator := value = "--".toList
  match switch with
  | .config =>
    .ok { intake with request.config := if isTerminator then none else some value }
  | .seed => do
    let seed ← if isTerminator then .ok .void else seedOf value
    return { intake with request.seed := some seed }
  | .help | .plain | .verbose => .error (.fault (.ignoredValue switch value))

/-- The switches of a cluster. Every letter must be one. -/
def spread (switch : Switch) : List Char → Except UsageFault (List Switch)
  | [] => .ok [switch]
  | c :: rest =>
    match Switch.ofLetter? c with
    | none => .error (.ignoredValue switch (c :: rest))
    | some next => do return switch :: (← spread next rest)

/-- The letters after a one-letter switch. An equals sign right after the switch is passed over if
letters follow. -/
def clusterLetters (switch : Switch) : List Char → Except UsageFault (List Char)
  | ['='] => .error (.ignoredValue switch [])
  | '=' :: letters => .ok letters
  | letters => .ok letters

/-- Takes a cluster. It is looked through before any of its switches has an effect. -/
def takeCluster (switch : Switch) (tail : List Char) (intake : Intake) : Except Stop Intake := do
  let letters ← (clusterLetters switch tail).mapError .fault
  let switches ← (spread switch letters).mapError .fault
  intake.flipAll switches

def takeOperand (text : List Char) (intake : Intake) : Intake :=
  match intake.request.script with
  | none => { intake with request.script := some text, scriptLast := true }
  | some _ => intake.addExtra text

/-- Takes the terminator. It is passed over unless the script was given earlier, and not by the
word right before. -/
def takeTerminator (scriptLast : Bool) (intake : Intake) : Intake :=
  if intake.request.script.isNone || scriptLast then intake else intake.addExtra "--".toList

def takeLong (switch : Switch) (value : Option (List Char)) (intake : Intake) :
    Except Stop Intake :=
  match value with
  | some value => intake.assign switch value
  | none =>
    if switch.takesValue then .ok { intake with awaiting := some switch } else intake.flip switch

def step (intake : Intake) (word : Word) : Except Stop Intake :=
  let settled := { intake with awaiting := none, scriptLast := false }
  match intake.awaiting, word with
  -- what looks like a switch is never taken for a value
  | some switch, .operand value => settled.assign switch value
  | some switch, _ => .error (.fault (.missingValue switch))
  | none, .operand text => .ok (settled.takeOperand text)
  | none, .terminator => .ok (settled.takeTerminator intake.scriptLast)
  | none, .cluster switch tail => settled.takeCluster switch tail
  | none, .long switch value => settled.takeLong switch value
  | none, .unknown text => .ok (settled.addExtra text)

def take : List Word → Intake → Except Stop Intake
  | [], intake => .ok intake
  | word :: rest, intake => do take rest (← intake.step word)

def finish (intake : Intake) : Except Stop Request :=
  match intake.awaiting with
  | some switch => .error (.fault (.missingValue switch))
  | none =>
    if intake.extras = [] then .ok intake.request
    else .error (.fault (.unrecognized intake.extras))

end Intake

def Request.ofArguments (arguments : List (List Char)) : Except Stop Request := do
  let words ← (Word.sortAll arguments).mapError .fault
  let intake ← Intake.take words {}
  intake.finish

namespace Help

def command : String := "axa"

def usage : String := "usage: axa [-h] [-p] [--config FILE] [--seed N] [-v] [script]\n"

def lines : List String :=
  ["",
   "Astra Lexer CLI: a command line interface for lexing the Astra programming language.",
   "",
   "Without a script, an interactive input loop reads scripts from the console.",
   "",
   "positional arguments:",
   "  script         Script file to lex (default: start the interactive input",
   "                 loop)",
   "",
   "options:",
   "  -h, --help     show this help message and exit",
   "  -p, --plain    Do not colorize the output",
   "  --config FILE  Config file (default: auto-discover axa.toml)",
   "  --seed N       Seed for the nesting depth colors of the token listing",
   "  -v, --verbose  Debug logging to stderr",
   "",
   "keys (input loop only):",
   "  Enter        lex the current script",
   "  Alt+Enter    insert a new line into the current script",
   "  Up           recall the previous script",
   "  Esc, Ctrl+D  exit the input loop (Ctrl+C also exits)"]

def text : List Char := usage.toList ++ lines.flatMap fun line => line.toList ++ ['\n']

end Help

end Astra
