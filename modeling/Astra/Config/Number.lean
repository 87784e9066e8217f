import Astra.Config.Lexical
import Astra.Config.Value
import Astra.Number.Binary64

/-!
# Numbers of configuration files

The number that a text begins with: whole numbers in four bases, and decimal numbers with a fraction
or an exponent. One underscore may stand between two digits.
-/

namespace Astra.Config

/-- The values of the digits that a text begins with, and the text after them. One underscore may
stand between two digits. -/
def leadingDigits (digit? : Char → Option Nat) : List Char → List Nat × List Char
  | [] => ([], [])
  | c :: rest =>
    match digit? c with
    | none => ([], c :: rest)
    | some n =>
      match rest with
      | [] => ([n], [])
      | d :: later =>
        if d = '_' then
          let (digits, rest) := leadingDigits digit? later
          if digits = [] then ([n], d :: later) else (n :: digits, rest)
        else
          let (digits, rest) := leadingDigits digit? (d :: later)
          (n :: digits, rest)

def plainDigit? (base : Nat) (c : Char) : Option Nat :=
  if c.isDigit ∧ c.toNat - '0'.toNat < base then some (c.toNat - '0'.toNat) else none

/-- The digits of the base that a letter after a leading zero names. -/
def basedDigit? : Char → Option (Nat × (Char → Option Nat))
  | 'x' => some (16, hexValue?)
  | 'o' => some (8, plainDigit? 8)
  | 'b' => some (2, plainDigit? 2)
  | _ => none

def basedNumber? : List Char → Option (Nat × List Char)
  | '0' :: letter :: rest => do
    let (base, digit?) ← basedDigit? letter
    match leadingDigits digit? rest with
    | ([], _) => none
    | (digits, rest) => some (Text.Numeral.value base digits, rest)
  | _ => none

/-- The digits in front of a decimal point. Only zero begins with a zero. -/
def wholeDigits : List Char → List Nat × List Char
  | '0' :: rest => ([0], rest)
  | text => leadingDigits (plainDigit? 10) text

def fractionDigits (text : List Char) : List Nat × List Char :=
  match text with
  | '.' :: rest =>
    match leadingDigits (plainDigit? 10) rest with
    | ([], _) => ([], text)
    | found => found
  | _ => ([], text)

def exponent? : List Char → Option (Int × List Char)
  | mark :: rest =>
    if mark = 'e' ∨ mark = 'E' then
      let (negative, body) := Text.Numeral.splitSign rest
      match leadingDigits (plainDigit? 10) body with
      | ([], _) => none
      | (digits, rest) => some (Number.withSign negative (Text.Numeral.value 10 digits), rest)
    else none
  | [] => none

def decimalNumber? (text : List Char) : Option (Read Value) :=
  let (negative, body) := Text.Numeral.splitSign text
  match wholeDigits body with
  | ([], _) => none
  | (whole, rest) =>
    let (fraction, rest) := fractionDigits rest
    match fraction, exponent? rest with
    | [], none =>
      if whole.length > Text.Numeral.maxDigits then
        some (.error (.numeral text (.tooLong whole.length)))
      else some (.ok (.whole (Number.withSign negative (Text.Numeral.value 10 whole)), rest))
    | fraction, found =>
      let (power, rest) := found.getD (0, rest)
      let digits := Text.Numeral.value 10 (whole ++ fraction)
      some (.ok (.real (Number.ofDecimal negative digits (power - fraction.length)), rest))

def specialNumbers : List (String × Float) :=
  let infinity : Float := 1.0 / 0.0
  let undefined : Float := 0.0 / 0.0
  [("inf", infinity), ("nan", undefined), ("-inf", -infinity), ("+inf", infinity),
    ("-nan", undefined), ("+nan", undefined)]

def specialNumber? (text : List Char) : Option (Value × List Char) :=
  (specialNumbers.find? fun (name, _) => name.toList.isPrefixOf text).map
    fun (name, x) => (.real x, text.drop name.length)

def number? (text : List Char) : Option (Read Value) :=
  match basedNumber? text with
  | some (n, rest) => some (.ok (.whole n, rest))
  | none => (decimalNumber? text).or ((specialNumber? text).map .ok)

end Astra.Config
