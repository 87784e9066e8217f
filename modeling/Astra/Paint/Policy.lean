import Astra.Assoc
import Astra.Color.Reader
import Astra.Color.Rgb
import Astra.Token

/-!
# Color policies

Which color a token is painted in. A policy gives each category a base color, and tints what stands
inside a scope. Overrides replace base colors of a policy and nothing else.

The palette holds the base colors and the shades of them that tokens are painted in by default. The
shades are given by their channels; they are the ones that lightening, darkening and brightening the
base colors give.
-/

namespace Astra.Palette

def red : Rgb := ⟨205, 49, 49⟩
def green : Rgb := ⟨13, 188, 121⟩
def yellow : Rgb := ⟨229, 229, 16⟩
def blue : Rgb := ⟨36, 114, 200⟩
def magenta : Rgb := ⟨188, 63, 188⟩
def cyan : Rgb := ⟨17, 168, 205⟩
def gray : Rgb := ⟨128, 128, 128⟩
def orange : Rgb := ⟨215, 135, 0⟩

def redLight : Rgb := ⟨215, 90, 90⟩
def redBright : Rgb := ⟨246, 59, 59⟩
def greenLight : Rgb := ⟨61, 201, 147⟩
def greenPale : Rgb := ⟨99, 211, 168⟩
def greenBright : Rgb := ⟨16, 226, 145⟩
def greenDim : Rgb := ⟨11, 169, 108⟩
def greenSoft : Rgb := ⟨37, 194, 134⟩
def yellowLight : Rgb := ⟨234, 234, 63⟩
def yellowBright : Rgb := ⟨255, 255, 18⟩
def yellowDark : Rgb := ⟨183, 183, 12⟩
def yellowDim : Rgb := ⟨206, 206, 14⟩
def magentaDark : Rgb := ⟨150, 50, 150⟩
def magentaBright : Rgb := ⟨226, 76, 226⟩
def cyanLight : Rgb := ⟨64, 185, 215⟩
def cyanBright : Rgb := ⟨20, 202, 246⟩
def grayDim : Rgb := ⟨115, 115, 115⟩

/-- Each shade beside the way in which it is derived from another color. -/
def shades : List (Except ShadeFault Rgb × Rgb) :=
  [(red.lighten, redLight), (red.brighten, redBright), (green.lighten, greenLight),
    (greenLight.lighten, greenPale), (green.brighten, greenBright),
    (green.darken (.real 0.1), greenDim), (green.lighten (.real 0.1), greenSoft),
    (yellow.lighten, yellowLight), (yellow.brighten, yellowBright), (yellow.darken, yellowDark),
    (yellow.darken (.real 0.1), yellowDim), (magenta.darken, magentaDark),
    (magenta.brighten, magentaBright), (cyan.lighten, cyanLight), (cyan.brighten, cyanBright),
    (gray.darken (.real 0.1), grayDim)]

theorem shades_derived : ∀ entry ∈ shades, entry.1.toOption = some entry.2 := by decide +kernel

/-- The colors that scopes take in turn unless others are chosen. -/
def scopeColors : List Rgb := [red, green, blue, yellow, magenta, cyan]

/-- The color of a category; some operators have none. -/
def ofCategory? : Category → Option Rgb
  | .word => some cyan
  | .hybrid => some cyanLight
  | .number => some blue
  | .escape => some greenBright
  | .underscore | .doubleUnderscore | .tripleUnderscore => some cyanBright
  | .openBlockComment | .closeBlockComment | .docHashComment | .eolHashComment
  | .eolSlashComment => some gray
  | .openParenthesis | .closeParenthesis | .openBrace | .closeBrace | .openBracket | .closeBracket
  | .openAngle | .closeAngle => some yellow
  | .openDoubleQuote | .closeDoubleQuote => some greenLight
  | .openSingleQuote | .closeSingleQuote => some greenPale
  | .openBacktick | .closeBacktick => some yellowLight
  | .doubleRightAngle | .doubleLeftAngle | .equals | .dash | .colonAssigner | .doubleColonAssigner
  | .tripleColonAssigner | .rightChevron | .leftChevron | .rightEqualsArrow | .leftEqualsArrow
  | .rightTildeArrow | .leftTildeArrow | .rightDashArrow | .leftDashArrow | .rightPlusArrow
  | .leftPlusArrow => some red
  | .hashColon | .doubleHashColon | .doubleHashDoubleColon | .colonRightAngle
  | .colonDoubleRightAngle | .doubleColonDoubleRightAngle | .doubleColonEquals
  | .doubleColonRightAngle => some magentaDark
  | .plusEquals | .minusEquals | .timesEquals | .divisionEquals | .percentEquals => some redLight
  | .doubleQuestionEquals | .doubleBangEquals | .dotEquals | .doubleEquals | .greaterOrEquals
  | .equalsOrLess | .greaterThan | .lessThan | .bangEquals | .questionEquals | .hashEquals
  | .doubleHashEquals => some magentaDark
  | .dot | .slash | .doubleDot | .tripleDot | .doubleColonPrefix | .dotBang | .bangDot
  | .questionDot | .dotQuestion | .doubleDotBang | .doubleDotQuestion => some magentaBright
  | .hash | .doubleHash => some yellowBright
  | .dotHash | .doubleDotHash => some orange
  | _ => none

/-- The color of plain content inside a scope, by what opened the scope. -/
def contentTint? : Category → Option Rgb
  | .openDoubleQuote => some green
  | .openSingleQuote => some greenLight
  | .openBacktick => some yellowDark
  | .openBlockComment => some gray
  | _ => none

/-- The color of a closer that does not match inside a scope, by what opened the scope. -/
def mismatchTint? : Category → Option Rgb
  | .openDoubleQuote => some greenDim
  | .openSingleQuote => some greenSoft
  | .openBacktick => some yellowDim
  | .openBlockComment => some grayDim
  | _ => none

end Astra.Palette

namespace Astra

structure Policy where
  base : Category → Option Rgb := Palette.ofCategory?
  fallback : Rgb := Palette.magenta
  mismatch : Rgb := Palette.redBright
  contentTint : Category → Option Rgb := Palette.contentTint?
  mismatchTint : Category → Option Rgb := Palette.mismatchTint?

/-- New base colors, in the order in which their categories were first named. -/
abbrev Overrides := List (Category × Rgb)

namespace Policy

def standard : Policy := {}

def colorOf (policy : Policy) (category : Category) : Rgb :=
  (policy.base category).getD policy.fallback

def contentColor (policy : Policy) (scope : Option Category) (default : Rgb) : Rgb :=
  (scope.bind policy.contentTint).getD default

def mismatchColor (policy : Policy) (scope : Option Category) : Rgb :=
  (scope.bind policy.mismatchTint).getD policy.mismatch

def override (policy : Policy) (overrides : Overrides) : Policy :=
  { policy with base := fun category => (overrides.lookup category).or (policy.base category) }

end Policy

/-- What is given as the color of a category: a text, or something of another kind. -/
inductive Candidate where
  | text (value : List Char)
  | other (kind : String)
  deriving DecidableEq, Repr

/-- Why a table of colors by category is refused. -/
inductive OverrideFault where
  | unknownCategory (name : List Char)
  | notText (name : List Char) (kind : String)
  | color (fault : Color.Fault)
  deriving DecidableEq, Repr

def OverrideFault.message : OverrideFault → List Char
  | unknownCategory name => "unknown token category ".toList ++ Text.quoted name
  | notText name kind =>
    "color for ".toList ++ name ++ " must be a string, got ".toList ++ kind.toList
  | color fault => fault.message

namespace Overrides

/-- The category of a name in any letter case. -/
def category? (name : List Char) : Option Category :=
  Category.ofName? (name.flatMap Text.upperCase)

def readEntry (name : List Char) (candidate : Candidate) : Except OverrideFault (Category × Rgb) :=
  match category? name, candidate with
  | none, _ => .error (.unknownCategory name)
  | some _, .other kind => .error (.notText name kind)
  | some category, .text value =>
    match Color.read value with
    | .ok color => .ok (category, color)
    | .error fault => .error (.color fault)

/-- Adds the entries of a table of colors in turn; the first bad one is reported. -/
def readOnto (overrides : Overrides) :
    List (List Char × Candidate) → Except OverrideFault Overrides
  | [] => .ok overrides
  | (name, candidate) :: rest =>
    match readEntry name candidate with
    | .ok (category, color) => readOnto (Assoc.put category color overrides) rest
    | .error fault => .error fault

def read (table : List (List Char × Candidate)) : Except OverrideFault Overrides :=
  readOnto [] table

end Overrides

end Astra
