import Astra.Number.Binary64
import Astra.Text.Writing

/-!
# Colors and shades

A color has three channels. They are meant to lie between 0 and 255, but nothing forces them to,
since shades of a color can leave that range. Shades are blends with white or black, and brighter
versions of equal hue and saturation. Amounts are whole numbers or doubles; whole amounts blend
exactly.
-/

namespace Astra

structure Rgb where
  red : Int
  green : Int
  blue : Int
  deriving DecidableEq, Repr

namespace Rgb

/-- A channel in base sixteen with a sign if it is negative, of at least two characters. -/
def channelHex : Int → List Char
  | .ofNat n => Text.hexadecimal 2 n
  | .negSucc n => '-' :: Text.hexadecimal 1 (n + 1)

def hex (color : Rgb) : List Char :=
  '#' :: channelHex color.red ++ channelHex color.green ++ channelHex color.blue

def escape : Char := '\x1b'

def startSequence (color : Rgb) : List Char :=
  escape :: "[38;2;".toList ++ Text.Numeral.ofInt color.red ++
    ';' :: Text.Numeral.ofInt color.green ++ ';' :: Text.Numeral.ofInt color.blue ++ ['m']

def resetSequence : List Char := escape :: "[0m".toList

/-- Text that a terminal shows in a color; nothing is written for an empty text. -/
def paint (color : Rgb) (text : List Char) : List Char :=
  if text = [] then [] else color.startSequence ++ text ++ resetSequence

end Rgb

/-- How far a shade is from its color. -/
inductive Amount where
  | whole (n : Int)
  | real (x : Float)

inductive ShadeFault where
  /-- A channel would be infinite. -/
  | infinite
  /-- A channel would be undefined. -/
  | undefined
  /-- A channel or amount exceeds every double. -/
  | tooLarge
  /-- The saturation of a color whose largest channel is zero, but whose smallest is not. -/
  | noSaturation
  deriving DecidableEq, Repr

namespace ShadeFault

def message : ShadeFault → String
  | infinite => "cannot convert float infinity to integer"
  | undefined => "cannot convert float NaN to integer"
  | tooLarge => "int too large to convert to float"
  | noSaturation => "float division by zero"

def ofWhole : Number.WholeFault → ShadeFault
  | .infinite => infinite
  | .undefined => undefined

end ShadeFault

namespace Shade

def toReal (n : Int) : Except ShadeFault Float :=
  match Number.ofInt? n with
  | some x => .ok x
  | none => .error .tooLarge

def truncate (x : Float) : Except ShadeFault Int :=
  (Number.truncate x).mapError ShadeFault.ofWhole

def round (x : Float) : Except ShadeFault Int :=
  (Number.round x).mapError ShadeFault.ofWhole

def blendChannel (amount : Amount) (channel target : Int) : Except ShadeFault Int :=
  match amount with
  | .whole n => .ok (channel + (target - channel) * n)
  | .real x => do
    let distance ← toReal (target - channel)
    let base ← toReal channel
    truncate (base + distance * x)

def blend (amount : Amount) (color target : Rgb) : Except ShadeFault Rgb := do
  return ⟨← blendChannel amount color.red target.red, ← blendChannel amount color.green target.green,
    ← blendChannel amount color.blue target.blue⟩

end Shade

/-- A color by hue, saturation and value, each meant to lie between zero and one. -/
structure Hsv where
  hue : Float
  saturation : Float
  value : Float

namespace Hsv

/-- The larger of two doubles, the first if they are alike. -/
def larger (x y : Float) : Float := if x < y then y else x

def smaller (x y : Float) : Float := if y < x then y else x

/-- A hue that may lie one turn too low, as one of the turn that begins at zero. -/
def turn (hue : Float) : Float := if hue < 0.0 then hue + 1.0 else if hue == 0.0 then 0.0 else hue

def ofRgb (color : Rgb) : Except ShadeFault Hsv := do
  let r := (← Shade.toReal color.red) / 255.0
  let g := (← Shade.toReal color.green) / 255.0
  let b := (← Shade.toReal color.blue) / 255.0
  let high := larger (larger r g) b
  let low := smaller (smaller r g) b
  if low == high then return ⟨0.0, 0.0, high⟩
  -- only a color with a negative channel is not gray and has no positive one
  if high == 0.0 then throw .noSaturation
  let range := high - low
  let fromRed := (high - r) / range
  let fromGreen := (high - g) / range
  let fromBlue := (high - b) / range
  let hue :=
    if r == high then fromBlue - fromGreen
    else if g == high then 2.0 + fromRed - fromBlue
    else 4.0 + fromGreen - fromRed
  return ⟨turn (hue / 6.0), range / high, high⟩

def channels (color : Hsv) : Except ShadeFault (Float × Float × Float) := do
  let v := color.value
  let s := color.saturation
  if s == 0.0 then return (v, v, v)
  let sector ← Shade.truncate (color.hue * 6.0)
  let f := color.hue * 6.0 - (← Shade.toReal sector)
  let p := v * (1.0 - s)
  let q := v * (1.0 - s * f)
  let t := v * (1.0 - s * (1.0 - f))
  match (sector % 6).toNat with
  | 0 => return (v, t, p)
  | 1 => return (q, v, p)
  | 2 => return (p, v, t)
  | 3 => return (p, q, v)
  | 4 => return (t, p, v)
  | _ => return (v, p, q)

def toRgb (color : Hsv) : Except ShadeFault Rgb := do
  let (r, g, b) ← color.channels
  return ⟨← Shade.round (r * 255.0), ← Shade.round (g * 255.0), ← Shade.round (b * 255.0)⟩

end Hsv

namespace Rgb

def step : Amount := .real 0.2

def lighten (color : Rgb) (amount : Amount := step) : Except ShadeFault Rgb :=
  Shade.blend amount color ⟨255, 255, 255⟩

def darken (color : Rgb) (amount : Amount := step) : Except ShadeFault Rgb :=
  Shade.blend amount color ⟨0, 0, 0⟩

/-- Raises the value of a color, at most to one, and keeps hue and saturation. -/
def brighten (color : Rgb) (amount : Amount := step) : Except ShadeFault Rgb := do
  let hsv ← Hsv.ofRgb color
  let factor ← match amount with
    | .whole n => Shade.toReal n
    | .real x => pure x
  Hsv.toRgb { hsv with value := Hsv.smaller 1.0 (hsv.value * (1.0 + factor)) }

end Rgb

end Astra
