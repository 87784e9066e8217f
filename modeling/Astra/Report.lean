import Astra.Paint.Listing
import Astra.Paint.Rendering

/-!
# Reports

The report on a source: the source in a box, whether it is in order, what is wrong with it, and its
tokens.
-/

namespace Astra

structure ReportStyle where
  colorize : Bool := true
  policy : Policy := .standard
  filename : List Char := Diagnostic.defaultFilename

/-- The text of a report, the notes made on the way, and the supply of colors afterwards. -/
structure Report (σ : Type) where
  text : List Char
  notes : List Note
  supply : σ

namespace Report

def border : List Char := List.replicate 28 '='

def divider : List Char := ['-', '-', '-']

/-- The width of the margin that holds the left edge of the box and the bullets. -/
def gutter : Nat := 8

def endLine (text : List Char) : List Char := text ++ ['\n']

/-- A line with a character at the right of the margin. -/
def gutterLine (c : Char) (text : List Char) : List Char :=
  endLine (Text.padLeft gutter [c] ++ text)

def box (code : List Char) : List Char :=
  gutterLine '╔' [] ++ (code.splitOn '\n').flatMap (gutterLine '║') ++ gutterLine '╚' []

/-- A source inside the left edge of a box, and the notes made on painting it. -/
def codeBlock (style : ReportStyle) (source : List Char) (tokens : List Token) :
    List Char × List Note :=
  if style.colorize then
    let rendering := Rendering.ofTokens source tokens style.policy
    (box rendering.write, rendering.notes)
  else (box source, [])

def bullet (text : List Char) : List Char := gutterLine '-' (' ' :: text)

/-- A diagnostic as an item: its summary, and its display from the second line on. -/
def diagnosticItem (filename : List Char) (d : Diagnostic) : List Char :=
  bullet d.summary ++
    ((Text.splitLines (d.format filename)).drop 1).flatMap fun line =>
      endLine (List.replicate (gutter + 2) ' ' ++ line.content)

/-- The section on what is wrong; a source in order has none. -/
def diagnosticSection (filename : List Char) (outcome : Lexing.Outcome) : List Char :=
  if outcome.isSuccess then []
  else
    endLine divider ++ endLine "Errors:".toList ++
      outcome.diagnostics.flatMap (diagnosticItem filename) ++ ['\n']

variable {σ : Type} [ColorSource σ]

def ofOutcome (style : ReportStyle) (supply : σ) (outcome : Lexing.Outcome) : Report σ :=
  let (code, codeNotes) := codeBlock style outcome.source outcome.tokens
  let listing :=
    Listing.ofTokens style.colorize style.policy supply outcome.source outcome.tokens
  let status := if outcome.isSuccess then "Result: SUCCESS" else "Result: FAILURE"
  { text :=
      ['\n'] ++ endLine border ++ endLine "Code:".toList ++ code ++ endLine divider ++
      endLine status.toList ++ diagnosticSection style.filename outcome ++ endLine divider ++
      endLine "Tokens:".toList ++ listing.lines.flatMap bullet ++ endLine border ++ ['\n']
    notes := codeNotes ++ listing.notes
    supply := listing.supply }

def codeBlock? (style : ReportStyle) (source : List Char) (tokens : List Token) :
    Except Text.WriteFault (List Char) := do
  let (code, notes) := codeBlock style source tokens
  notes.forM Note.check
  return code

/-- The report on an outcome, if all of it can be written. The first part that cannot is at
fault. -/
def ofOutcome? (style : ReportStyle) (supply : σ) (outcome : Lexing.Outcome) :
    Except Text.WriteFault (Report σ) := do
  discard (codeBlock? style outcome.source outcome.tokens)
  outcome.diagnostics.forM fun d => discard (d.format? style.filename)
  discard (Listing.ofTokens? style.colorize style.policy supply outcome.source outcome.tokens)
  return ofOutcome style supply outcome

def ofSource (style : ReportStyle) (supply : σ) (source : List Char) : Report σ :=
  let outcome := Lexing.tokenize source
  let report := ofOutcome style supply outcome
  { report with notes := outcome.notes ++ report.notes }

end Report

end Astra
