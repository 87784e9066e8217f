import Astra.Text.Lines
import Astra.Text.Writing

/-!
# Tokens

A token is a category over a part of a source text. Its offsets are integers without bounds; the
text it stands for is the slice of the source that they name. Each category has the name under which
it is listed, and a role for nesting: some categories open a scope, some close one, the others do
neither.
-/

namespace Astra

inductive Category where
  | word | hybrid | number | escape | underscore | doubleUnderscore | tripleUnderscore
  | openBlockComment | closeBlockComment | docHashComment | eolHashComment | eolSlashComment
  | openParenthesis | closeParenthesis | openBrace | closeBrace | openBracket | closeBracket
  | openAngle | closeAngle
  | openDoubleQuote | closeDoubleQuote | openSingleQuote | closeSingleQuote | openBacktick
  | closeBacktick
  | doubleRightAngle | doubleLeftAngle | equals | dash | colonAssigner | doubleColonAssigner
  | tripleColonAssigner | rightChevron | leftChevron | rightEqualsArrow | leftEqualsArrow
  | rightTildeArrow | leftTildeArrow | rightDashArrow | leftDashArrow | rightPlusArrow
  | leftPlusArrow | hashColon | doubleHashColon | doubleHashDoubleColon | colonRightAngle
  | colonDoubleRightAngle | doubleColonDoubleRightAngle | doubleColonEquals | doubleColonRightAngle
  | plusEquals | minusEquals | timesEquals | divisionEquals | percentEquals | doubleQuestionEquals
  | doubleBangEquals | dotEquals
  | doubleEquals | greaterOrEquals | equalsOrLess | greaterThan | lessThan | bangEquals
  | questionEquals | hashEquals | doubleHashEquals
  | dot | slash | doubleDot | tripleDot | doubleColonPrefix | dotBang | bangDot | questionDot
  | dotQuestion | doubleDotBang | doubleDotQuestion
  | hash | doubleHash | dotHash | doubleDotHash
  | plus | star | percent | bang | doubleBang | question | doubleQuestion | ampersand | pipe | caret
  | tilde | atSign | dollar | comma | semicolon
  | endOfText
  deriving DecidableEq, Repr

namespace Category

/-- Every category, in the order in which they are numbered. -/
def all : List Category :=
  [.word, .hybrid, .number, .escape, .underscore, .doubleUnderscore, .tripleUnderscore,
   .openBlockComment, .closeBlockComment, .docHashComment, .eolHashComment, .eolSlashComment,
   .openParenthesis, .closeParenthesis, .openBrace, .closeBrace, .openBracket, .closeBracket,
   .openAngle, .closeAngle, .openDoubleQuote, .closeDoubleQuote, .openSingleQuote,
   .closeSingleQuote, .openBacktick, .closeBacktick, .doubleRightAngle, .doubleLeftAngle, .equals,
   .dash, .colonAssigner, .doubleColonAssigner, .tripleColonAssigner, .rightChevron, .leftChevron,
   .rightEqualsArrow, .leftEqualsArrow, .rightTildeArrow, .leftTildeArrow, .rightDashArrow,
   .leftDashArrow, .rightPlusArrow, .leftPlusArrow, .hashColon, .doubleHashColon,
   .doubleHashDoubleColon, .colonRightAngle, .colonDoubleRightAngle, .doubleColonDoubleRightAngle,
   .doubleColonEquals, .doubleColonRightAngle, .plusEquals, .minusEquals, .timesEquals,
   .divisionEquals, .percentEquals, .doubleQuestionEquals, .doubleBangEquals, .dotEquals,
   .doubleEquals, .greaterOrEquals, .equalsOrLess, .greaterThan, .lessThan, .bangEquals,
   .questionEquals, .hashEquals, .doubleHashEquals, .dot, .slash, .doubleDot, .tripleDot,
   .doubleColonPrefix, .dotBang, .bangDot, .questionDot, .dotQuestion, .doubleDotBang,
   .doubleDotQuestion, .hash, .doubleHash, .dotHash, .doubleDotHash, .plus, .star, .percent, .bang,
   .doubleBang, .question, .doubleQuestion, .ampersand, .pipe, .caret, .tilde, .atSign, .dollar,
   .comma, .semicolon, .endOfText]

theorem mem_all (category : Category) : category ∈ all := by
  cases category <;> decide

def name : Category → String
  | .word => "WORD"
  | .hybrid => "HYBRID"
  | .number => "NUMBER"
  | .escape => "ESCAPE"
  | .underscore => "UNDERSCORE"
  | .doubleUnderscore => "DOUBLE_UNDERSCORE"
  | .tripleUnderscore => "TRIPLE_UNDERSCORE"
  | .openBlockComment => "OPEN_BLOCK_COMMENT"
  | .closeBlockComment => "CLOSE_BLOCK_COMMENT"
  | .docHashComment => "DOC_HASH_COMMENT"
  | .eolHashComment => "EOL_HASH_COMMENT"
  | .eolSlashComment => "EOL_SLASH_COMMENT"
  | .openParenthesis => "OPEN_PARENTHESIS"
  | .closeParenthesis => "CLOSE_PARENTHESIS"
  | .openBrace => "OPEN_BRACE"
  | .closeBrace => "CLOSE_BRACE"
  | .openBracket => "OPEN_BRACKET"
  | .closeBracket => "CLOSE_BRACKET"
  | .openAngle => "OPEN_ANGLE"
  | .closeAngle => "CLOSE_ANGLE"
  | .openDoubleQuote => "OPEN_DOUBLE_QUOTE"
  | .closeDoubleQuote => "CLOSE_DOUBLE_QUOTE"
  | .openSingleQuote => "OPEN_SINGLE_QUOTE"
  | .closeSingleQuote => "CLOSE_SINGLE_QUOTE"
  | .openBacktick => "OPEN_BACKTICK"
  | .closeBacktick => "CLOSE_BACKTICK"
  | .doubleRightAngle => "DOUBLE_RIGHT_ANGLE"
  | .doubleLeftAngle => "DOUBLE_LEFT_ANGLE"
  | .equals => "EQUALS"
  | .dash => "DASH"
  | .colonAssigner => "COLON_ASSIGNER"
  | .doubleColonAssigner => "DOUBLE_COLON_ASSIGNER"
  | .tripleColonAssigner => "TRIPLE_COLON_ASSIGNER"
  | .rightChevron => "RIGHT_CHEVRON"
  | .leftChevron => "LEFT_CHEVRON"
  | .rightEqualsArrow => "RIGHT_EQUALS_ARROW"
  | .leftEqualsArrow => "LEFT_EQUALS_ARROW"
  | .rightTildeArrow => "RIGHT_TILDE_ARROW"
  | .leftTildeArrow => "LEFT_TILDE_ARROW"
  | .rightDashArrow => "RIGHT_DASH_ARROW"
  | .leftDashArrow => "LEFT_DASH_ARROW"
  | .rightPlusArrow => "RIGHT_PLUS_ARROW"
  | .leftPlusArrow => "LEFT_PLUS_ARROW"
  | .hashColon => "HASH_COLON"
  | .doubleHashColon => "DOUBLE_HASH_COLON"
  | .doubleHashDoubleColon => "DOUBLE_HASH_DOUBLE_COLON"
  | .colonRightAngle => "COLON_RIGHT_ANGLE"
  | .colonDoubleRightAngle => "COLON_DOUBLE_RIGHT_ANGLE"
  | .doubleColonDoubleRightAngle => "DOUBLE_COLON_DOUBLE_RIGHT_ANGLE"
  | .doubleColonEquals => "DOUBLE_COLON_EQUALS"
  | .doubleColonRightAngle => "DOUBLE_COLON_RIGHT_ANGLE"
  | .plusEquals => "PLUS_EQUALS"
  | .minusEquals => "MINUS_EQUALS"
  | .timesEquals => "TIMES_EQUALS"
  | .divisionEquals => "DIVISION_EQUALS"
  | .percentEquals => "PERCENT_EQUALS"
  | .doubleQuestionEquals => "DOUBLE_QUESTION_EQUALS"
  | .doubleBangEquals => "DOUBLE_BANG_EQUALS"
  | .dotEquals => "DOT_EQUALS"
  | .doubleEquals => "DOUBLE_EQUALS"
  | .greaterOrEquals => "GREATER_OR_EQUALS"
  | .equalsOrLess => "EQUALS_OR_LESS"
  | .greaterThan => "GREATER_THAN"
  | .lessThan => "LESS_THAN"
  | .bangEquals => "BANG_EQUALS"
  | .questionEquals => "QUESTION_EQUALS"
  | .hashEquals => "HASH_EQUALS"
  | .doubleHashEquals => "DOUBLE_HASH_EQUALS"
  | .dot => "DOT"
  | .slash => "SLASH"
  | .doubleDot => "DOUBLE_DOT"
  | .tripleDot => "TRIPLE_DOT"
  | .doubleColonPrefix => "DOUBLE_COLON_PREFIX"
  | .dotBang => "DOT_BANG"
  | .bangDot => "BANG_DOT"
  | .questionDot => "QUESTION_DOT"
  | .dotQuestion => "DOT_QUESTION"
  | .doubleDotBang => "DOUBLE_DOT_BANG"
  | .doubleDotQuestion => "DOUBLE_DOT_QUESTION"
  | .hash => "HASH"
  | .doubleHash => "DOUBLE_HASH"
  | .dotHash => "DOT_HASH"
  | .doubleDotHash => "DOUBLE_DOT_HASH"
  | .plus => "PLUS"
  | .star => "STAR"
  | .percent => "PERCENT"
  | .bang => "BANG"
  | .doubleBang => "DOUBLE_BANG"
  | .question => "QUESTION"
  | .doubleQuestion => "DOUBLE_QUESTION"
  | .ampersand => "AND"
  | .pipe => "PIPE"
  | .caret => "CARET"
  | .tilde => "TILDE"
  | .atSign => "AT"
  | .dollar => "DOLLAR"
  | .comma => "COMMA"
  | .semicolon => "SEMICOLON"
  | .endOfText => "EOF"

def ofName? (text : List Char) : Option Category :=
  all.find? fun category => category.name.toList == text

/-- The number of a category; the first has number one. -/
def ordinal (category : Category) : Nat := all.idxOf category + 1

end Category

/-- What a token does to the nesting of scopes. -/
inductive Role where
  | opener | closer | plain
  deriving DecidableEq, Repr

def Category.role : Category → Role
  | .openParenthesis | .openBrace | .openBracket | .openAngle
  | .openDoubleQuote | .openSingleQuote | .openBacktick | .openBlockComment => .opener
  | .closeParenthesis | .closeBrace | .closeBracket | .closeAngle
  | .closeDoubleQuote | .closeSingleQuote | .closeBacktick | .closeBlockComment => .closer
  | _ => .plain

structure Token where
  category : Category
  start : Int
  length : Int
  deriving DecidableEq, Repr

namespace Token

def stop (token : Token) : Int := token.start + token.length

def role (token : Token) : Role := token.category.role

def text (token : Token) (source : List Char) : List Char :=
  Text.slice source token.start token.stop

/-- What a listing says of a token after the name of its category: its span and its text. -/
def details (token : Token) (source : List Char) : List Char :=
  " [".toList ++ Text.Numeral.ofInt token.start ++ ':' :: Text.Numeral.ofInt token.stop ++
    "] ".toList ++ Text.quoted (token.text source)

def describe (token : Token) (source : List Char) : List Char :=
  token.category.name.toList ++ token.details source

def checkSpan (token : Token) : Except Text.WriteFault Unit := do
  Text.checkNumeral token.start
  Text.checkNumeral token.stop

def describe? (token : Token) (source : List Char) : Except Text.WriteFault (List Char) := do
  token.checkSpan
  return token.describe source

end Token

end Astra
