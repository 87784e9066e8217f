import Astra.Color.Supply
import Astra.Nesting
import Astra.Paint.Policy

/-!
# Depth marks and token listings

Openers that open a scope and closers that close one are marked with the depth and the color of
the scope. Each scope draws a color of its own. A listing has one line for each token. In color it
names categories in their color and shows the depth of what opens and closes scopes.
-/

namespace Astra

structure Mark where
  depth : Nat
  color : Rgb
  opens : Bool
  deriving DecidableEq, Repr

namespace Mark

/-- The depth, in parentheses for an opener. -/
def text (mark : Mark) : List Char :=
  let depth := Text.Numeral.ofInt mark.depth
  if mark.opens then '(' :: depth ++ [')'] else depth

def label (mark : Mark) : List Char := mark.color.paint mark.text

end Mark

/-- The marks of tokens, the notes made on the way, and the supply of colors afterwards. -/
structure Marking (σ : Type) where
  marks : List (Option Mark)
  notes : List Note
  supply : σ

variable {σ : Type} [ColorSource σ]

def markFrom (tracker : Tracker) (supply : σ) : List Token → Marking σ
  | [] => ⟨[], [], supply⟩
  | token :: rest =>
    match token.role with
    | .opener =>
      if tracker.inQuote then
        let later := markFrom tracker supply rest
        ⟨none :: later.marks, later.notes, later.supply⟩
      else
        let (color, supply) := ColorSource.next supply
        match tracker.enter? token color with
        | some (scope, after) =>
          let later := markFrom after supply rest
          ⟨some ⟨scope.depth, scope.color, true⟩ :: later.marks, later.notes, later.supply⟩
        | none =>
          let later := markFrom tracker supply rest
          ⟨none :: later.marks, later.notes, later.supply⟩
    | .closer =>
      match tracker.leave? token with
      | some (scope, after) =>
        let later := markFrom after supply rest
        ⟨some ⟨scope.depth, scope.color, false⟩ :: later.marks, later.notes, later.supply⟩
      | none =>
        let later := markFrom tracker supply rest
        ⟨none :: later.marks, .mismatch token tracker.innermost? :: later.notes, later.supply⟩
    | .plain =>
      let later := markFrom tracker supply rest
      ⟨none :: later.marks, later.notes, later.supply⟩

/-- The marks of a token list: one entry for each token. -/
def depthMarks (supply : σ) (tokens : List Token) : Marking σ := markFrom {} supply tokens

/-- The lines of a listing, the notes made on the way, and the supply of colors afterwards. -/
structure Listing (σ : Type) where
  lines : List (List Char)
  notes : List Note
  supply : σ

namespace Listing

variable {σ : Type} [ColorSource σ]

def paintedLine (policy : Policy) (source : List Char) (token : Token) (mark : Option Mark) :
    List Char :=
  (policy.colorOf token.category).paint token.category.name.toList ++ token.details source ++
    mark.elim [] Mark.label

def painted (policy : Policy) (supply : σ) (source : List Char) (tokens : List Token) :
    Listing σ :=
  let marking := depthMarks supply tokens
  ⟨List.zipWith (paintedLine policy source) tokens marking.marks, marking.notes, marking.supply⟩

/-- A listing without colors, which draws none. -/
def plain (supply : σ) (source : List Char) (tokens : List Token) : Listing σ :=
  ⟨tokens.map (·.describe source), [], supply⟩

def ofTokens (colorize : Bool) (policy : Policy) (supply : σ) (source : List Char)
    (tokens : List Token) : Listing σ :=
  if colorize then painted policy supply source tokens else plain supply source tokens

def ofTokens? (colorize : Bool) (policy : Policy) (supply : σ) (source : List Char)
    (tokens : List Token) : Except Text.WriteFault (Listing σ) := do
  let listing := ofTokens colorize policy supply source tokens
  listing.notes.forM Note.check
  tokens.forM Token.checkSpan
  return listing

end Listing

end Astra
