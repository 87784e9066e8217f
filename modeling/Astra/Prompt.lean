import Astra.Report

/-!
# The prompt

At the prompt, keys change the text that is being written, submit it, or leave the prompt; what is
still being written then is lost. A session asks for script after script and runs them until it is
left. Empty scripts are passed over. What runs a script may be anything that takes a state to the
next one; the command reports on it, and then only the supply of colors is carried from one script
to the next.
-/

namespace Astra.Prompt

def message : List Char := "0> ".toList

/-- What stands in front of a further line of a script: its number, or nothing but blanks where a
long line is wrapped. -/
def continuation (width line : Int) (isWrapped : Bool) : List Char :=
  if isWrapped then List.replicate width.toNat ' '
  else Text.padLeft width (Text.Numeral.ofInt line ++ "> ".toList)

def continuation? (width line : Int) (isWrapped : Bool) : Except Text.WriteFault (List Char) := do
  if isWrapped then Text.checkCount width
  else
    Text.checkNumeral line
    Text.checkWidth width
  return continuation width line isWrapped

inductive Exit where
  | endOfInput
  | interrupt
  deriving DecidableEq, Repr

inductive Key where
  | character (c : Char)
  | enter
  /-- Enter while a modifier key is held. -/
  | newline
  | backspace
  | endOfInput
  | interrupt
  | escape
  deriving DecidableEq, Repr

inductive Action where
  | insert (text : List Char)
  /-- Takes back the last character. -/
  | takeBack
  | submit
  | leave (exit : Exit)
  | leaveIfEmpty
  deriving DecidableEq, Repr

namespace Key

/-- The keys that the prompt binds itself. -/
def bound? : Key → Option Action
  | enter => some .submit
  | newline => some (.insert ['\n'])
  | escape => some (.leave .endOfInput)
  | _ => none

/-- The keys that every editor of a line knows. -/
def editing? : Key → Option Action
  | character c => some (.insert [c])
  | backspace => some .takeBack
  | endOfInput => some .leaveIfEmpty
  | interrupt => some (.leave .interrupt)
  | _ => none

def action? (key : Key) : Option Action := key.bound?.or key.editing?

/-- The keys that type a character. Line ends are typed with the key that submits, a tab asks for a
completion where there is none, and some control characters are keys of their own. -/
def ofCharacter (c : Char) : List Key :=
  if c = '\r' ∨ c = '\n' then [enter]
  else if c = '\t' then []
  else if c = '\x08' ∨ c = '\x7f' then [backspace]
  else if c = '\x03' then [interrupt]
  else if c = '\x04' then [endOfInput]
  else [character c]

def ofText (text : List Char) : List Key := text.flatMap ofCharacter

/-- The keys behind what a terminal sends. A modifier key sends an escape character first. -/
def ofTerminal : List Char → List Key
  | [] => []
  -- an escape character on its own is the key of that name
  | '\x1b' :: '\n' :: rest => newline :: ofTerminal rest
  | c :: rest => (if c = '\x1b' then [escape] else ofCharacter c) ++ ofTerminal rest

end Key

inductive Press where
  | editing (written : List Char)
  | submitted (text : List Char)
  | left (exit : Exit)
  deriving DecidableEq, Repr

def Action.perform (written : List Char) : Action → Press
  | insert text => .editing (written ++ text)
  | takeBack => .editing written.dropLast
  | submit => .submitted written
  | leave exit => .left exit
  | leaveIfEmpty => if written = [] then .left .endOfInput else .editing written

/-- Presses a key when `written` is already there. A key without an action has no effect. -/
def press (written : List Char) (key : Key) : Press :=
  match key.action? with
  | some action => action.perform written
  | none => .editing written

/-- The texts that keys submit when `written` is already there. Keys after an exit have no effect. -/
def submissionsAfter (written : List Char) : List Key → List (List Char)
  | [] => []
  | key :: rest =>
    match press written key with
    | .editing written => submissionsAfter written rest
    | .submitted text => text :: submissionsAfter [] rest
    | .left _ => []

def submissions (keys : List Key) : List (List Char) := submissionsAfter [] keys

def history (scripts : List (List Char)) : List (List Char) := scripts.filter (· ≠ [])

/-- All that is asked: once for every script, and once more when the input ends. -/
def messages (scripts : List (List Char)) : List (List Char) :=
  List.replicate (scripts.length + 1) message

/-- A session so far: what running its scripts has led to, the scripts that were run, what was asked,
and the notes on the session itself. -/
structure Session (τ : Type) where
  state : τ
  history : List (List Char) := []
  messages : List (List Char) := []
  notes : List Note := []

namespace Session

variable {τ : Type}

def ask (session : Session τ) : Session τ :=
  { session with messages := session.messages ++ [message] }

/-- Runs a script that was submitted; an empty one is passed over. -/
def submit (run : τ → List Char → τ) (session : Session τ) (script : List Char) : Session τ :=
  if script = [] then session
  else
    { session with
      state := run session.state script
      history := session.history ++ [script] }

def closing (history : List (List Char)) : Note := .promptClosed history.length

/-- Leaves the session. No way of leaving it is an error. -/
def leave (session : Session τ) : Exit → Session τ
  | .endOfInput | .interrupt => { session with notes := session.notes ++ [closing session.history] }

/-- Asks for scripts until there are no more, and then leaves. -/
def hold (run : τ → List Char → τ) (exit : Exit) (session : Session τ) :
    List (List Char) → Session τ
  | [] => session.ask.leave exit
  | script :: rest => (session.ask.submit run script).hold run exit rest

end Session

/-- The reports made so far, and the supply of colors for the next. -/
structure Reports (σ : Type) where
  made : List (Report σ) := []
  supply : σ

namespace Reports

variable {σ : Type}

def add [ColorSource σ] (style : ReportStyle) (reports : Reports σ) (script : List Char) :
    Reports σ :=
  let report := Report.ofSource style reports.supply script
  ⟨reports.made ++ [report], report.supply⟩

def text (reports : Reports σ) : List Char := reports.made.flatMap (·.text)

def notes (reports : Reports σ) : List Note := reports.made.flatMap (·.notes)

end Reports

end Astra.Prompt
