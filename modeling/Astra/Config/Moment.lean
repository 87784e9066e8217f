import Astra.Text.Writing

/-!
# Dates and times

Calendar dates, times of day, and both together with an optional distance from universal time: how
they are recognized at the front of a text, when they exist, and how they are shown.
-/

namespace Astra.Config

structure Date where
  year : Nat
  month : Nat
  day : Nat
  deriving DecidableEq, Repr

structure Clock where
  hour : Nat
  minute : Nat
  second : Nat
  microsecond : Nat
  deriving DecidableEq, Repr

/-- A point in time. The zone is the distance from universal time in minutes. -/
inductive Moment where
  | date (date : Date)
  | clock (clock : Clock)
  | dateTime (date : Date) (clock : Clock) (zone : Option Int)
  deriving DecidableEq, Repr

namespace Date

def isLeapYear (year : Nat) : Bool :=
  year % 4 = 0 && (year % 100 ≠ 0 || year % 400 = 0)

def daysInMonth (year month : Nat) : Nat :=
  if month = 2 then if isLeapYear year then 29 else 28
  else if month = 4 ∨ month = 6 ∨ month = 9 ∨ month = 11 then 30
  else 31

/-- Whether the calendar has such a date; it has no year zero. -/
def exists? (date : Date) : Bool :=
  1 ≤ date.year && 1 ≤ date.month && date.month ≤ 12 && 1 ≤ date.day &&
    date.day ≤ daysInMonth date.year date.month

end Date

namespace Moment

/-- Whether the date of a moment, if it has one, exists. -/
def exists? : Moment → Bool
  | .date d => d.exists?
  | .clock _ => true
  | .dateTime d _ _ => d.exists?

def digits? (count : Nat) (text : List Char) : Option (Nat × List Char) :=
  let front := text.take count
  if front.length = count ∧ front.all Char.isDigit then
    some (Text.Numeral.value 10 (front.map fun c => c.toNat - '0'.toNat), text.drop count)
  else none

def twoDigits? (low high : Nat) (text : List Char) : Option (Nat × List Char) := do
  let (n, rest) ← digits? 2 text
  if low ≤ n ∧ n ≤ high then some (n, rest) else none

def after? (c : Char) : List Char → Option (List Char)
  | [] => none
  | head :: rest => if head = c then some rest else none

def date? (text : List Char) : Option (Date × List Char) := do
  let (year, rest) ← digits? 4 text
  let rest ← after? '-' rest
  let (month, rest) ← twoDigits? 1 12 rest
  let rest ← after? '-' rest
  let (day, rest) ← twoDigits? 1 31 rest
  return (⟨year, month, day⟩, rest)

/-- The microseconds that a fraction of a second gives, and the text after the fraction. Digits
beyond the sixth are passed over. -/
def fraction (text : List Char) : Nat × List Char :=
  match text with
  | '.' :: rest =>
    let digits := rest.takeWhile Char.isDigit
    if digits = [] then (0, text)
    else
      let six := digits.take 6 ++ List.replicate (6 - digits.length) '0'
      (Text.Numeral.value 10 (six.map fun c => c.toNat - '0'.toNat), rest.dropWhile Char.isDigit)
  | _ => (0, text)

def clock? (text : List Char) : Option (Clock × List Char) := do
  let (hour, rest) ← twoDigits? 0 23 text
  let rest ← after? ':' rest
  let (minute, rest) ← twoDigits? 0 59 rest
  let rest ← after? ':' rest
  let (second, rest) ← twoDigits? 0 59 rest
  let (microsecond, rest) := fraction rest
  return (⟨hour, minute, second, microsecond⟩, rest)

def distance? (sign : Int) (text : List Char) : Option (Int × List Char) := do
  let (hours, rest) ← twoDigits? 0 23 text
  let rest ← after? ':' rest
  let (minutes, rest) ← twoDigits? 0 59 rest
  return (sign * (60 * hours + minutes), rest)

def zone (text : List Char) : Option Int × List Char :=
  let found :=
    match text with
    | 'Z' :: rest => some (0, rest)
    | 'z' :: rest => some (0, rest)
    | '+' :: rest => distance? 1 rest
    | '-' :: rest => distance? (-1) rest
    | _ => none
  match found with
  | some (minutes, rest) => (some minutes, rest)
  | none => (none, text)

/-- The time of day after a date, a separator between them. -/
def clockAfterDate? : List Char → Option (Clock × List Char)
  | c :: rest => if c = 'T' ∨ c = 't' ∨ c = ' ' then clock? rest else none
  | [] => none

def leading? (text : List Char) : Option (Moment × List Char) :=
  match date? text with
  | some (d, rest) =>
    match clockAfterDate? rest with
    | some (c, rest) =>
      let (minutes, rest) := zone rest
      some (.dateTime d c minutes, rest)
    | none => some (.date d, rest)
  | none => (clock? text).map fun (c, rest) => (.clock c, rest)

/-- The parts of a time of day that are shown: seconds only if there are any. -/
def clockParts (clock : Clock) : List Nat :=
  if clock.microsecond ≠ 0 then [clock.hour, clock.minute, clock.second, clock.microsecond]
  else if clock.second ≠ 0 then [clock.hour, clock.minute, clock.second]
  else [clock.hour, clock.minute]

def commaList (parts : List Nat) : List Char :=
  List.intercalate ", ".toList (parts.map (Nat.toDigits 10))

/-- A distance from universal time as days and seconds, of which the seconds are never negative. -/
def displayZone (minutes : Int) : List Char :=
  if minutes = 0 then "datetime.timezone.utc".toList
  else
    let seconds := Text.Numeral.ofInt (minutes * 60 % 86400)
    let days := if minutes < 0 then "days=-1, ".toList else []
    "datetime.timezone(datetime.timedelta(".toList ++ days ++ "seconds=".toList ++ seconds ++
      "))".toList

/-- The levels that a moment takes up where it is shown: its zone is shown below it, and the distance
of the zone from universal time below that. -/
def levels : Moment → Nat
  | .dateTime _ _ (some minutes) => if minutes = 0 then 2 else 3
  | _ => 1

def display : Moment → List Char
  | .date d => "datetime.date(".toList ++ commaList [d.year, d.month, d.day] ++ [')']
  | .clock c => "datetime.time(".toList ++ commaList (clockParts c) ++ [')']
  | .dateTime d c zone =>
    "datetime.datetime(".toList ++ commaList ([d.year, d.month, d.day] ++ clockParts c) ++
      zone.elim [] (fun minutes => ", tzinfo=".toList ++ displayZone minutes) ++ [')']

end Moment

end Astra.Config
