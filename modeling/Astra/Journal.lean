import Astra.Lexing.Outcome

/-!
# Journal

What the program notes about its own work besides its output. Notes are data; how detailed a
journal is depends on a threshold.
-/

namespace Astra

inductive Severity where
  | debug | warning
  deriving DecidableEq, Repr

namespace Severity

def name : Severity → String
  | debug => "DEBUG"
  | warning => "WARNING"

/-- The least severity that a journal records. -/
def threshold (verbose : Bool) : Severity := if verbose then debug else warning

def reaches : Severity → Severity → Bool
  | debug, warning => false
  | _, _ => true

end Severity

/-- The part of the program that a note comes from. -/
inductive Topic where
  | lexing | nesting | painting | prompt | command
  deriving DecidableEq, Repr

def Topic.name : Topic → String
  | lexing => "astralex.lexer"
  | nesting => "astralex.scopes"
  | painting => "astralex.render"
  | prompt => "astralex.console"
  | command => "astralex.cli"

inductive Note where
  | complaint (diagnostic : Diagnostic)
  /-- A closer that does not close the innermost scope. -/
  | mismatch (closer : Token) (innermost : Option Category)
  /-- A token that begins before the end of the one before it. -/
  | overlap (token : Token) (position : Int)
  | promptClosed (scripts : Nat)
  | configLoading (path : List Char)
  deriving DecidableEq, Repr

namespace Note

def topic : Note → Topic
  | complaint _ => .lexing
  | mismatch _ _ => .nesting
  | overlap _ _ => .painting
  | promptClosed _ => .prompt
  | configLoading _ => .command

def severity : Note → Severity
  | overlap _ _ => .warning
  | _ => .debug

def message : Note → List Char
  | complaint diagnostic => "lex error: ".toList ++ diagnostic.summary
  | mismatch closer innermost =>
    "mismatched ".toList ++ closer.category.name.toList ++ " at ".toList ++
      Text.Numeral.ofInt closer.start ++ " (innermost scope: ".toList ++
      (innermost.elim "none" Category.name).toList ++ [')']
  | overlap token position =>
    "token ".toList ++ token.category.name.toList ++ " at ".toList ++
      Text.Numeral.ofInt token.start ++ " overlaps the previous token ending at ".toList ++
      Text.Numeral.ofInt position
  | promptClosed scripts =>
    "input loop closed after ".toList ++ Text.Numeral.ofInt scripts ++ " scripts".toList
  | configLoading path => "loading config from ".toList ++ path

/-- Whether the numbers in a note can be written. -/
def check : Note → Except Text.WriteFault Unit
  | complaint diagnostic => diagnostic.checkPlace
  | mismatch closer _ => Text.checkNumeral closer.start
  | overlap token position => do
    Text.checkNumeral token.start
    Text.checkNumeral position
  | promptClosed scripts => Text.checkNumeral scripts
  | configLoading _ => .ok ()

def message? (note : Note) : Except Text.WriteFault (List Char) := do
  note.check
  return note.message

end Note

structure Handler where
  name : String := "RichHandler"
  level : Severity
  showTime : Bool
  showPath : Bool
  deriving DecidableEq, Repr

/-- What notes of all topics pass through on their way to the handlers. -/
structure Logger where
  name : String := "astralex"
  level : Severity := .warning
  handlers : List Handler := []
  deriving DecidableEq, Repr

namespace Logger

/-- Takes the place of whatever was set up before, so that no note is written twice. -/
def setUp (logger : Logger) (verbose : Bool) : Logger :=
  let level := Severity.threshold verbose
  { logger with level, handlers := [{ level, showTime := verbose, showPath := verbose }] }

def records (logger : Logger) (note : Note) : Bool :=
  note.severity.reaches logger.level && logger.handlers.any (note.severity.reaches ·.level)

end Logger

/-- The notes that are written during a run. -/
def Journal.filter (verbose : Bool) (notes : List Note) : List Note :=
  notes.filter (Logger.setUp {} verbose).records

def Lexing.Outcome.notes (outcome : Lexing.Outcome) : List Note :=
  outcome.diagnostics.map Note.complaint

end Astra
