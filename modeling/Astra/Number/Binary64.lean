import Astra.Text.Writing

/-!
# Binary floating point

Exact readings of a double: its parts, the whole numbers next to it, and the double nearest to a
decimal numeral. All of it is computed on the bit pattern in whole numbers.

A double is written with the fewest digits that read back as the same double; of several such texts
the one nearest to it is taken. Small and large numbers are written with an exponent.
-/

namespace Astra.Number

/-- What a double is: a whole number times a power of two, or no number at all. -/
inductive Parts where
  | finite (negative : Bool) (mantissa : Nat) (exponent : Int)
  | infinite (negative : Bool)
  | undefined
  deriving DecidableEq, Repr

def parts (x : Float) : Parts :=
  let bits := x.toBits.toNat
  let negative := decide (Nat.pow 2 63 ≤ bits)
  let biased : Nat := bits / Nat.pow 2 52 % Nat.pow 2 11
  let fraction := bits % Nat.pow 2 52
  if biased = 2047 then
    if fraction = 0 then .infinite negative else .undefined
  -- the least exponent is also that of the numbers that lack the leading bit
  else if biased = 0 then .finite negative fraction (-1074)
  else .finite negative (Nat.pow 2 52 + fraction) ((biased : Int) - 1075)

inductive WholeFault where
  | infinite
  | undefined
  deriving DecidableEq, Repr

def withSign (negative : Bool) (n : Nat) : Int := if negative then - (n : Int) else n

def truncate (x : Float) : Except WholeFault Int :=
  match parts x with
  | .infinite _ => .error .infinite
  | .undefined => .error .undefined
  | .finite negative mantissa exponent =>
    if 0 ≤ exponent then .ok (withSign negative (mantissa * Nat.pow 2 exponent.toNat))
    else .ok (withSign negative (mantissa / Nat.pow 2 (-exponent).toNat))

/-- The quotient of two whole numbers to the nearest whole number; a half goes to the even one. -/
def divideToEven (n d : Nat) : Nat :=
  let quotient := n / d
  let twice := 2 * (n % d)
  if twice < d then quotient
  else if d < twice then quotient + 1
  else if quotient % 2 = 0 then quotient else quotient + 1

def round (x : Float) : Except WholeFault Int :=
  match parts x with
  | .infinite _ => .error .infinite
  | .undefined => .error .undefined
  | .finite negative mantissa exponent =>
    if 0 ≤ exponent then .ok (withSign negative (mantissa * Nat.pow 2 exponent.toNat))
    else .ok (withSign negative (divideToEven mantissa (Nat.pow 2 (-exponent).toNat)))

def ofInt? (n : Int) : Option Float :=
  let x := Float.ofInt n
  match parts x with
  | .finite .. => some x
  | _ => none

/-- The double nearest to `digits * 10 ^ exponent`. A number that is surely too large or too small
is settled without computing the power. -/
def ofDecimal (negative : Bool) (digits : Nat) (exponent : Int) : Float :=
  let magnitude : Int := exponent + (Nat.toDigits 10 digits).length
  let x : Float :=
    if digits = 0 ∨ magnitude < -400 then 0.0
    else if 400 < magnitude then 1.0 / 0.0
    else if 0 ≤ exponent then Float.ofScientific digits false exponent.toNat
    else Float.ofScientific digits true (-exponent).toNat
  if negative then -x else x

structure Decimal where
  digits : Nat
  exponent : Int
  deriving DecidableEq, Repr

/-- The power of ten just above `numerator / denominator`. -/
def magnitude (numerator denominator : Nat) : Int :=
  if denominator ≤ numerator then (Nat.toDigits 10 (numerator / denominator)).length
  else
    match (List.range 400).find? fun n => denominator ≤ numerator * Nat.pow 10 n with
    | some n => 1 - n
    | none => -400

/-- The decimal with the given exponent next to `mantissa * 2 ^ power` that reads back as that
double. Distances are measured in quarters of the unit of the mantissa; the bounds of the interval
read back only when the mantissa is even. -/
def onGrid? (mantissa : Nat) (power exponent : Int) : Option Decimal :=
  let scale := fun (quarters : Nat) => quarters * Nat.pow 2 power.toNat * Nat.pow 10 (-exponent).toNat
  let unit := 4 * Nat.pow 2 (-power).toNat * Nat.pow 10 exponent.toNat
  -- just below a power of two, doubles lie twice as close
  let low :=
    scale (if mantissa = Nat.pow 2 52 ∧ -1074 < power then 4 * mantissa - 1 else 4 * mantissa - 2)
  let middle := scale (4 * mantissa)
  let high := scale (4 * mantissa + 2)
  let readsBack := fun (n : Nat) =>
    if mantissa % 2 = 0 then low ≤ n * unit ∧ n * unit ≤ high
    else low < n * unit ∧ n * unit < high
  let below := middle / unit
  let above := below + 1
  if readsBack below then
    if readsBack above then
      let nearest := divideToEven middle unit
      some ⟨nearest, exponent⟩
    else some ⟨below, exponent⟩
  else if readsBack above then some ⟨above, exponent⟩
  else none

/-- The shortest decimal that reads back as `mantissa * 2 ^ power`. Seventeen digits always do. -/
def shortest (mantissa : Nat) (power : Int) : Decimal :=
  let top := magnitude (mantissa * Nat.pow 2 power.toNat) (Nat.pow 2 (-power).toNat)
  let found := (List.range 17).findSome? fun (n : Nat) => onGrid? mantissa power (top - (n + 1))
  found.getD ⟨0, 0⟩

/-- How doubles are written. A number is written without an exponent when its decimal point falls
at least `least` and at most `most` digits after its first digit. -/
structure RealFormat where
  least : Int
  most : Int
  exponentWidth : Nat

/-- Positional from a ten-thousandth up to seventeen digits, exponents of at least two digits. -/
def RealFormat.standard : RealFormat := ⟨-3, 16, 2⟩

def fillZeros (width : Nat) (text : List Char) : List Char :=
  List.replicate (width - text.length) '0' ++ text

namespace Decimal

def write (format : RealFormat) (d : Decimal) : List Char :=
  let all := Nat.toDigits 10 d.digits
  let digits := (all.reverse.dropWhile (· = '0')).reverse
  -- the decimal point falls so many digits after the first digit
  let point := d.exponent + all.length
  if format.least ≤ point ∧ point ≤ format.most then
    if point ≤ 0 then '0' :: '.' :: List.replicate (-point).toNat '0' ++ digits
    else
      let whole := digits.take point.toNat
      let fraction := digits.drop point.toNat
      whole ++ List.replicate (point.toNat - whole.length) '0' ++
        '.' :: (if fraction = [] then ['0'] else fraction)
  else
    let exponent := point - 1
    let head := digits.take 1
    let tail := digits.drop 1
    head ++ (if tail = [] then [] else '.' :: tail) ++
      'e' :: (if exponent < 0 then '-' else '+') ::
        fillZeros format.exponentWidth (Nat.toDigits 10 exponent.natAbs)

end Decimal

def writeReal (format : RealFormat) (x : Float) : List Char :=
  match parts x with
  | .undefined => "nan".toList
  | .infinite negative => (if negative then "-inf" else "inf").toList
  | .finite negative mantissa power =>
    let text :=
      if mantissa = 0 then "0.0".toList else (shortest mantissa power).write format
    if negative then '-' :: text else text

end Astra.Number
