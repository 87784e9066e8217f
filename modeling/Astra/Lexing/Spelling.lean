import Astra.Assoc
import Astra.Text.Characters
import Astra.Token

/-!
# Words and fixed spellings

A word is a run of letters, digits and underscores. Digits may go on after one decimal point. The
operators, brackets and enclosures of the language have fixed spellings. An enclosure is a quotation
or a block comment: it ends at its own closing text only.
-/

namespace Astra.Lexing

def isWordChar (c : Char) : Bool := Text.isAlphanumeric c || c = '_'

/-- The longest word that a text begins with. A point belongs to it when only digits stand before
the point and a digit stands after it. -/
def leadingWord (text : List Char) : List Char :=
  let run := text.takeWhile isWordChar
  match text.dropWhile isWordChar with
  | '.' :: next :: rest =>
    if Text.allDigits run && Text.isDigit next then
      run ++ '.' :: (next :: rest).takeWhile isWordChar
    else run
  | _ => run

def wordCategory (text : List Char) : Category :=
  if text.all (· = '_') then
    match text.length with
    | 1 => .underscore
    | 2 => .doubleUnderscore
    | 3 => .tripleUnderscore
    | _ => .hybrid
  else if text.head?.any Text.isDigit && Text.allDigits (text.erase '.') then .number
  else if Text.allLetters text then .word
  else .hybrid

def operators : List (List Char × Category) :=
  [(">>".toList, .doubleRightAngle), ("<<".toList, .doubleLeftAngle), ("=".toList, .equals),
   ("-".toList, .dash), (":".toList, .colonAssigner), ("::".toList, .doubleColonAssigner),
   (":::".toList, .tripleColonAssigner), (">>>".toList, .rightChevron),
   ("<<<".toList, .leftChevron), ("=>".toList, .rightEqualsArrow), ("<=".toList, .leftEqualsArrow),
   ("~>".toList, .rightTildeArrow), ("<~".toList, .leftTildeArrow), ("->".toList, .rightDashArrow),
   ("<-".toList, .leftDashArrow), ("+>".toList, .rightPlusArrow), ("<+".toList, .leftPlusArrow),
   ("#:".toList, .hashColon), ("##:".toList, .doubleHashColon),
   ("##::".toList, .doubleHashDoubleColon), (":>".toList, .colonRightAngle),
   (":>>".toList, .colonDoubleRightAngle), ("::>>".toList, .doubleColonDoubleRightAngle),
   ("::=".toList, .doubleColonEquals), ("::>".toList, .doubleColonRightAngle),
   ("+=".toList, .plusEquals), ("-=".toList, .minusEquals), ("*=".toList, .timesEquals),
   ("/=".toList, .divisionEquals), ("%=".toList, .percentEquals),
   ("??=".toList, .doubleQuestionEquals), ("!!=".toList, .doubleBangEquals),
   (".=".toList, .dotEquals), ("==".toList, .doubleEquals), (">=".toList, .greaterOrEquals),
   ("=<".toList, .equalsOrLess), ("!=".toList, .bangEquals), ("?=".toList, .questionEquals),
   ("#=".toList, .hashEquals), ("##=".toList, .doubleHashEquals), (".".toList, .dot),
   ("/".toList, .slash), ("..".toList, .doubleDot), ("...".toList, .tripleDot),
   (".!".toList, .dotBang), ("!.".toList, .bangDot), ("?.".toList, .questionDot),
   (".?".toList, .dotQuestion), ("..!".toList, .doubleDotBang), ("..?".toList, .doubleDotQuestion),
   ("#".toList, .hash), ("##".toList, .doubleHash), (".#".toList, .dotHash),
   ("..#".toList, .doubleDotHash), ("+".toList, .plus), ("*".toList, .star), ("%".toList, .percent),
   ("!".toList, .bang), ("!!".toList, .doubleBang), ("?".toList, .question),
   ("??".toList, .doubleQuestion), ("&".toList, .ampersand), ("|".toList, .pipe),
   ("^".toList, .caret), ("~".toList, .tilde), ("@".toList, .atSign), ("$".toList, .dollar),
   (",".toList, .comma), (";".toList, .semicolon)]

/-- The longest operator that a text begins with, and its spelling. No spelling has more than four
characters. -/
def leadingOperator? (text : List Char) : Option (Category × List Char) :=
  [4, 3, 2, 1].findSome? fun n => (operators.lookup (text.take n)).map (·, text.take n)

def bracket? : Char → Option Category
  | '(' => some .openParenthesis
  | ')' => some .closeParenthesis
  | '\x7b' => some .openBrace
  | '\x7d' => some .closeBrace
  | '[' => some .openBracket
  | ']' => some .closeBracket
  | _ => none

/-- The kinds of text between two delimiters in which line comments and further enclosures have no
meaning. -/
inductive Enclosure where
  | doubleQuote | singleQuote | backtick | blockComment
  deriving DecidableEq, Repr

namespace Enclosure

def opener : Enclosure → Category
  | doubleQuote => .openDoubleQuote
  | singleQuote => .openSingleQuote
  | backtick => .openBacktick
  | blockComment => .openBlockComment

def closer : Enclosure → Category
  | doubleQuote => .closeDoubleQuote
  | singleQuote => .closeSingleQuote
  | backtick => .closeBacktick
  | blockComment => .closeBlockComment

def openingText : Enclosure → List Char
  | doubleQuote => ['\x22']
  | singleQuote => ['\x27']
  | backtick => ['\x60']
  | blockComment => ['/', '*']

def closingText : Enclosure → List Char
  | blockComment => ['*', '/']
  | enclosure => enclosure.openingText

def ofOpener? : Category → Option Enclosure
  | .openDoubleQuote => some doubleQuote
  | .openSingleQuote => some singleQuote
  | .openBacktick => some backtick
  | .openBlockComment => some blockComment
  | _ => none

def ofQuote? : Char → Option Enclosure
  | '\x22' => some doubleQuote
  | '\x27' => some singleQuote
  | '\x60' => some backtick
  | _ => none

end Enclosure

end Astra.Lexing
