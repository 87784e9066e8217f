import Astra.Text.Characters

/-!
# Quotations and numerals

A quoted text stands between quotation marks on one line: marks and backslashes inside are escaped,
and so is every character that is not printable. Whole numbers are written in plain digits. They are
read with decimal digits of any script, an optional sign, single underscores between digits and
blanks around the whole.

Some of what is written is bounded: how many digits a number may have, how often a character may be
repeated and how wide a column may be. Numbers are unbounded otherwise, so each bound is checked
before the text is made.
-/

namespace Astra.Text

/-- The mark that a text is quoted with: a double one if only that saves escapes. -/
def quotationMark (text : List Char) : Char :=
  if text.contains '\x27' && !text.contains '\x22' then '\x22' else '\x27'

/-- A number in base sixteen, filled up with zeros to the given width. -/
def hexadecimal (width n : Nat) : List Char :=
  let digits := Nat.toDigits 16 n
  List.replicate (width - digits.length) '0' ++ digits

/-- A character as it stands between the given quotation marks. -/
def escapeChar (mark c : Char) : List Char :=
  if c = mark || c = '\\' then ['\\', c]
  else if c = '\n' then ['\\', 'n']
  else if c = '\r' then ['\\', 'r']
  else if c = '\t' then ['\\', 't']
  else if isPrintable c then [c]
  else if c.toNat < 0x100 then '\\' :: 'x' :: hexadecimal 2 c.toNat
  else if c.toNat < 0x10000 then '\\' :: 'u' :: hexadecimal 4 c.toNat
  else '\\' :: 'U' :: hexadecimal 8 c.toNat

def quoted (text : List Char) : List Char :=
  let mark := quotationMark text
  mark :: text.flatMap (escapeChar mark) ++ [mark]

end Astra.Text

namespace Astra.Text.Numeral

def ofInt : Int → List Char
  | .ofNat n => Nat.toDigits 10 n
  | .negSucc n => '-' :: Nat.toDigits 10 (n + 1)

inductive Fault where
  | malformed
  | tooLong (digits : Nat)
  deriving DecidableEq, Repr

/-- A numeral with more digits than this is refused unread. -/
def maxDigits : Nat := 4300

/-- A complaint shows at most this much of the quoted text. -/
def maxShown : Nat := 200

def Fault.message (text : List Char) : Fault → List Char
  | malformed => "invalid literal for int() with base 10: ".toList ++ (quoted text).take maxShown
  | tooLong digits =>
    "Exceeds the limit (".toList ++ ofInt maxDigits ++
      " digits) for integer string conversion: value has ".toList ++ ofInt digits ++
      " digits; use sys.set_int_max_str_digits() to increase the limit".toList

/-- The blanks that may stand around a numeral: the information separators are not among them. -/
def isMargin (c : Char) : Bool := isBlank c && !(0x1c ≤ c.toNat && c.toNat ≤ 0x1f)

/-- The values of digits that stand together or have one underscore between them. -/
def digitValues : List Char → Option (List Nat)
  | [] => none
  | [c] => (decimalValue? c).map ([·])
  | c :: '_' :: rest => do
    let digit ← decimalValue? c
    return digit :: (← digitValues rest)
  | c :: rest => do
    let digit ← decimalValue? c
    return digit :: (← digitValues rest)

/-- The number that digits spell in a base, most significant first. -/
def value (base : Nat) (digits : List Nat) : Nat := digits.foldl (base * · + ·) 0

def splitSign : List Char → Bool × List Char
  | '-' :: rest => (true, rest)
  | '+' :: rest => (false, rest)
  | text => (false, text)

/-- Reads a whole number. A numeral that is too long is refused before what follows it is seen. -/
def read (text : List Char) : Except Fault Int :=
  let (negative, body) := splitSign (text.dropWhile isMargin)
  let isBody := fun c => isDecimal c || c = '_'
  match digitValues (body.takeWhile isBody) with
  | none => .error .malformed
  | some digits =>
    -- the length is checked first, even of digits that something else follows
    if digits.length > maxDigits then .error (.tooLong digits.length)
    else if (body.dropWhile isBody).all isMargin then
      .ok (if negative then - (value 10 digits : Int) else value 10 digits)
    else .error .malformed

end Astra.Text.Numeral

namespace Astra.Text

inductive WriteFault where
  /-- A number has too many digits. -/
  | numeral
  /-- A character is to be repeated a number of times that does not fit a machine word. -/
  | count
  /-- The width of a column does not fit a machine word. -/
  | width
  deriving DecidableEq, Repr

namespace WriteFault

def message : WriteFault → List Char
  | numeral =>
    "Exceeds the limit (".toList ++ Numeral.ofInt Numeral.maxDigits ++
      " digits) for integer string conversion; use sys.set_int_max_str_digits() ".toList ++
      "to increase the limit".toList
  | count => "cannot fit 'int' into an index-sized integer".toList
  | width => "Python int too large to convert to C ssize_t".toList

end WriteFault

def numeralBound : Nat := Nat.pow 10 Numeral.maxDigits

def checkNumeral (n : Int) : Except WriteFault Unit :=
  if n.natAbs < numeralBound then .ok () else .error .numeral

theorem checkNumeral_eq_ok_iff {n : Int} :
    checkNumeral n = .ok () ↔ n.natAbs < numeralBound := by
  rw [checkNumeral]
  split
  · rename_i small
    exact iff_of_true rfl small
  · rename_i large
    exact iff_of_false (by intro found; cases found) large

/-- The least number that is too large for a signed machine word. -/
def wordBound : Nat := Nat.pow 2 63

def fitsWord (n : Int) : Bool := -(wordBound : Int) ≤ n && n < wordBound

/-- Whether a character can be repeated so often; not at all if the number is negative. -/
def checkCount (n : Int) : Except WriteFault Unit :=
  if fitsWord n then .ok () else .error .count

def checkWidth (n : Int) : Except WriteFault Unit :=
  if fitsWord n then .ok () else .error .width

section Results

variable {ε α β : Type}

theorem bind_eq_ok_iff {first : Except ε α} {next : α → Except ε β} {b : β} :
    (first >>= next) = .ok b ↔ ∃ a, first = .ok a ∧ next a = .ok b := by
  constructor
  · intro found
    cases first with
    | ok a => exact ⟨a, rfl, found⟩
    | error fault => cases found
  · rintro ⟨a, rfl, found⟩
    exact found

theorem discard_eq_ok_iff {result : Except ε α} :
    discard result = .ok () ↔ ∃ a, result = .ok a := by
  cases result with
  | ok a => exact iff_of_true rfl ⟨a, rfl⟩
  | error fault =>
    apply iff_of_false
    · intro found
      cases found
    · rintro ⟨a, found⟩
      cases found

theorem forM_eq_ok_iff {check : α → Except ε Unit} {items : List α} :
    items.forM check = .ok () ↔ ∀ item ∈ items, check item = .ok () := by
  induction items with
  | nil => exact ⟨fun _ _ member => absurd member List.not_mem_nil, fun _ => rfl⟩
  | cons item rest ih =>
    change (check item >>= fun _ => rest.forM check) = .ok () ↔ _
    rw [bind_eq_ok_iff, List.forall_mem_cons, ← ih]
    constructor
    · rintro ⟨done, first, later⟩
      exact ⟨first, later⟩
    · rintro ⟨first, later⟩
      exact ⟨(), first, later⟩

end Results

end Astra.Text
