import Astra.Lexing.Outcome
import Astra.Nesting
import Astra.Paint.Policy

/-!
# Painted sources

A source in which every token stands in its color. What stands between tokens is copied. A rendering
is a list of spans, so that the text in it can be told from the control sequences.
-/

namespace Astra

/-- A part of a rendering. -/
inductive Span where
  | raw (text : List Char)
  | painted (color : Rgb) (text : List Char)
  deriving DecidableEq, Repr

namespace Span

def text : Span → List Char
  | raw text => text
  | painted _ text => text

def write : Span → List Char
  | raw text => text
  | painted color text => color.paint text

end Span

structure Rendering where
  spans : List Span
  notes : List Note
  deriving DecidableEq, Repr

namespace Rendering

def write (r : Rendering) : List Char := r.spans.flatMap Span.write

/-- The color of a token that follows on open scopes, the scopes after it, and the notes made. -/
def resolve (policy : Policy) (tracker : Tracker) (token : Token) : Rgb × Tracker × List Note :=
  let color := policy.colorOf token.category
  let scope := tracker.innermost?
  match token.role with
  | .opener =>
    match tracker.enter? token color with
    | some (_, after) => (color, after, [])
    -- a scope that absorbs the opener takes it for content
    | none => (policy.contentColor scope color, tracker, [])
  | .closer =>
    match tracker.leave? token with
    | some (_, after) => (color, after, [])
    | none => (policy.mismatchColor scope, tracker, [.mismatch token scope])
  | .plain => (policy.contentColor scope color, tracker, [])

/-- Notes a token that begins before the end of the one before it. -/
def overlapNotes (position : Int) (token : Token) : List Note :=
  if token.start < position then [.overlap token position] else []

/-- The rendering of tokens that follow on open scopes and on the text before a position. The token
at the end of a text ends a rendering. -/
def ofTokensFrom (source : List Char) (policy : Policy) (position : Int) (tracker : Tracker) :
    List Token → Rendering
  | [] => ⟨[.raw (Text.sliceFrom source position)], []⟩
  | token :: rest =>
    let gap := Text.slice source position token.start
    let overlap := overlapNotes position token
    if token.category = .endOfText then ⟨[.raw gap], overlap⟩
    else
      let (color, after, notes) := resolve policy tracker token
      let later := ofTokensFrom source policy token.stop after rest
      ⟨.raw gap :: .painted color (token.text source) :: later.spans,
        overlap ++ notes ++ later.notes⟩

def ofTokens (source : List Char) (tokens : List Token) (policy : Policy) : Rendering :=
  ofTokensFrom source policy 0 {} tokens

def ofTokens? (source : List Char) (tokens : List Token) (policy : Policy) :
    Except Text.WriteFault Rendering := do
  let rendering := ofTokens source tokens policy
  rendering.notes.forM Note.check
  return rendering

end Rendering

def colorize (source : List Char) (policy : Policy := .standard) : List Char :=
  (Rendering.ofTokens source (Lexing.tokenize source).tokens policy).write

end Astra
