import Astra.Text.Lines
import Astra.Text.Writing

/-!
# Places in a source

The line and the column of an offset in a source text, and diagnostics. Lines end at line feeds;
lines and columns count from one. A diagnostic is a message about a part of a source. Its display
shows the message, the place, and the line of the source with the part underlined.
-/

namespace Astra

structure Position where
  line : Int
  column : Int
  offset : Int
  deriving DecidableEq, Repr

namespace Position

/-- How many characters of a text come before its last line. -/
def lastLineStart (text : List Char) : Nat :=
  text.length - (text.reverse.takeWhile (· ≠ '\n')).length

/-- The position of an offset. An offset outside the source counts as the nearer end for the line
it is on, and keeps its distance to the start of that line for the column. -/
def ofOffset (source : List Char) (offset : Int) : Position :=
  let before := source.take (Text.clampIndex source.length offset)
  { line := before.count '\n' + 1
    column := offset - lastLineStart before + 1
    offset }

end Position

structure Diagnostic where
  message : List Char
  position : Position
  source : List Char
  length : Int := 1
  deriving DecidableEq, Repr

namespace Diagnostic

def summary (d : Diagnostic) : List Char :=
  d.message ++ " (".toList ++ Text.Numeral.ofInt d.position.line ++
    ':' :: Text.Numeral.ofInt d.position.column ++ [')']

/-- The line of the source on which the diagnostic lies, without its line feed or carriage return;
empty when the source has no such line. -/
def excerpt (d : Diagnostic) : List Char :=
  let index := d.position.line - 1
  if index < 0 then []
  else
    match (Text.splitLines d.source)[index.toNat]? with
    | none => []
    | some line => line.shown

/-- How many characters are underlined: those of the part that lie on the line, but at least one. -/
def underlineLength (d : Diagnostic) : Nat :=
  (max 1 (min d.length (d.excerpt.length - d.position.column + 1))).toNat

def format (d : Diagnostic) (filename : List Char) : List Char :=
  let line := Text.Numeral.ofInt d.position.line
  let margin := List.replicate (line.length + 1) ' '
  let pad := List.replicate (d.position.column - 1).toNat ' '
  "error: ".toList ++ d.message ++
    '\n' :: margin ++ "--> ".toList ++ filename ++ ':' :: line ++
      ':' :: Text.Numeral.ofInt d.position.column ++
    '\n' :: margin ++ ['|'] ++
    '\n' :: line ++ " | ".toList ++ d.excerpt ++
    '\n' :: margin ++ "| ".toList ++ pad ++ List.replicate d.underlineLength '^'

def checkPlace (d : Diagnostic) : Except Text.WriteFault Unit := do
  Text.checkNumeral d.position.line
  Text.checkNumeral d.position.column

def format? (d : Diagnostic) (filename : List Char) : Except Text.WriteFault (List Char) := do
  d.checkPlace
  Text.checkCount (d.position.column - 1)
  Text.checkCount d.underlineLength
  return d.format filename

/-- The name under which a text that comes from no file is reported. -/
def defaultFilename : List Char := "<input>".toList

end Diagnostic

end Astra
