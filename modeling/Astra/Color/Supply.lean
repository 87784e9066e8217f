import Astra.Color.Rgb
import Astra.Number.Twister

/-!
# Supplies of colors

A supply gives one color after the other. Two supplies are at hand: a palette that is repeated, and
saturated colors of random hue, of which neighbors differ visibly when a few attempts suffice.
-/

namespace Astra

/-- A state from which colors can be drawn forever. -/
class ColorSource (σ : Type) where
  next : σ → Rgb × σ

/-- A palette that is repeated, and how many colors have been drawn from it. -/
structure Cycle where
  palette : List Rgb
  nonempty : palette ≠ []
  drawn : Nat := 0

inductive PaletteFault where
  | empty
  deriving DecidableEq, Repr

def PaletteFault.message : PaletteFault → String
  | empty => "palette must not be empty"

namespace Cycle

def ofList (palette : List Rgb) : Except PaletteFault Cycle :=
  if h : palette ≠ [] then .ok ⟨palette, h, 0⟩ else .error .empty

def next (c : Cycle) : Rgb × Cycle :=
  (c.palette.get ⟨c.drawn % c.palette.length, Nat.mod_lt _ (List.length_pos_iff.mpr c.nonempty)⟩,
    { c with drawn := c.drawn + 1 })

end Cycle

/-- A generator of random colors and the last hue it gave. -/
structure RandomHues where
  generator : Number.Twister
  lastHue : Option Float := none

namespace RandomHues

def ofSeed (seed : Int) : RandomHues := { generator := Number.Twister.ofSeed seed }

def minDistance : Float := 0.1

def attempts : Nat := 8

def distance (a b : Float) : Float :=
  let d := if a < b then b - a else a - b
  Hsv.smaller d (1.0 - d)

def isDistinct (lastHue : Option Float) (hue : Float) : Bool :=
  match lastHue with
  | none => true
  | some last => decide (minDistance ≤ distance hue last)

/-- Draws hues until one is distinct from the last or no attempt is left. -/
def settle (lastHue : Option Float) : Nat → Float → Number.Twister → Float × Number.Twister
  | 0, hue, generator => (hue, generator)
  | attempts + 1, hue, generator =>
    if isDistinct lastHue hue then (hue, generator)
    else
      let (hue, generator) := generator.nextUnit
      settle lastHue attempts hue generator

def next (r : RandomHues) : Rgb × RandomHues :=
  let (hue, generator) := r.generator.nextUnit
  let (hue, generator) := settle r.lastHue attempts hue generator
  let (saturation, generator) := generator.nextBetween 0.55 1.0
  let (value, generator) := generator.nextBetween 0.75 1.0
  ((Hsv.toRgb ⟨hue, saturation, value⟩).toOption.getD ⟨0, 0, 0⟩, ⟨generator, some hue⟩)

end RandomHues

/-- The supplies that can be chosen. -/
inductive Supply where
  | cycle (colors : Cycle)
  | random (colors : RandomHues)

namespace Supply

def ofSeed (seed : Int) : Supply := .random (.ofSeed seed)

def next : Supply → Rgb × Supply
  | cycle colors => let (color, colors) := colors.next; (color, cycle colors)
  | random colors => let (color, colors) := colors.next; (color, random colors)

def take : Nat → Supply → List Rgb
  | 0, _ => []
  | n + 1, supply => let (color, supply) := supply.next; color :: take n supply

end Supply

instance : ColorSource Cycle := ⟨Cycle.next⟩

instance : ColorSource RandomHues := ⟨RandomHues.next⟩

instance : ColorSource Supply := ⟨Supply.next⟩

end Astra
