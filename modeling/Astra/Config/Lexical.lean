import Astra.Config.Fault

/-!
# Blanks, comments and texts of configuration files

The smallest parts of a configuration text: blanks, comments, and texts between quotation marks with
and without escapes, on one line or on several.
-/

namespace Astra.Config

def isSpace (c : Char) : Bool := c = ' ' || c = '\t'

def isSpaceOrNewline (c : Char) : Bool := isSpace c || c = '\n'

/-- Control characters other than tabs; they may stand nowhere in a line. -/
def isControl (c : Char) : Bool := (c.toNat < 0x20 && c ≠ '\t') || c.toNat = 0x7f

def skipSpaces (text : List Char) : List Char := text.dropWhile isSpace

def skipCommentBody : List Char → Except Fault (List Char)
  | [] => .ok []
  | c :: rest =>
    if c = '\n' then .ok (c :: rest)
    else if isControl c then fail (.invalidCharacter c) (c :: rest)
    else skipCommentBody rest

def skipComment : List Char → Except Fault (List Char)
  | '#' :: rest => skipCommentBody rest
  | text => .ok text

/-- Passes over blanks, line ends and comments between the items of an array. -/
def skipVoid (inComment : Bool) : List Char → Except Fault (List Char)
  | [] => .ok []
  | c :: rest =>
    if inComment then
      if c = '\n' then skipVoid false rest
      else if isControl c then fail (.invalidCharacter c) (c :: rest)
      else skipVoid true rest
    else if isSpaceOrNewline c then skipVoid false rest
    else if c = '#' then skipVoid true rest
    else .ok (c :: rest)

def indexOf? (wanted : List Char) : List Char → Option Nat
  | [] => if wanted = [] then some 0 else none
  | c :: rest =>
    if wanted.isPrefixOf (c :: rest) then some 0 else (indexOf? wanted rest).map (· + 1)

theorem dropWhile_length_le (p : Char → Bool) (text : List Char) :
    (text.dropWhile p).length ≤ text.length :=
  (List.dropWhile_suffix p).length_le

/-- Reads up to a closing text, without escapes. -/
def literal (closing : List Char) (isIllegal : Char → Bool) (text : List Char) :
    Read (List Char) :=
  match indexOf? closing text with
  | none => fail (.expected closing) []
  | some n =>
    let body := text.take n
    match body.dropWhile (!isIllegal ·) with
    | [] => .ok (body, text.drop (n + closing.length))
    | c :: later => fail (.invalidCharacter c) (c :: later ++ text.drop n)

def hexValue? (c : Char) : Option Nat :=
  if c.isDigit then some (c.toNat - '0'.toNat)
  else if 'a' ≤ c ∧ c ≤ 'f' then some (c.toNat - 'a'.toNat + 10)
  else if 'A' ≤ c ∧ c ≤ 'F' then some (c.toNat - 'A'.toNat + 10)
  else none

/-- The character that the given count of hexadecimal digits names. -/
def escapedScalar (count : Nat) (text : List Char) : Except Fault Char :=
  match (text.take count).mapM hexValue? with
  | none => fail .invalidHex text
  | some values =>
    let code := Text.Numeral.value 16 values
    if values.length < count then fail .invalidHex text
    else if code.isValidChar then .ok (Char.ofNat code)
    else fail .notScalar (text.drop count)

def simpleEscape? : Char → Option Char
  | 'b' => some '\x08'
  | 't' => some '\t'
  | 'n' => some '\n'
  | 'f' => some '\x0c'
  | 'r' => some '\r'
  | '\x22' => some '\x22'
  | '\\' => some '\\'
  | _ => none

def withFront (c : Char) (later : Read (List Char)) : Read (List Char) :=
  later.map fun (text, rest) => (c :: text, rest)

/-- Reads the rest of a text between double quotation marks, with escapes. On several lines, a
backslash at the end of a line joins it with the next text that is not blank, and only three marks
end the text. -/
def escaped (multiline : Bool) (text : List Char) : Read (List Char) :=
  match text with
  | [] => fail .unterminatedText []
  | ['\\'] => fail .unescapedBackslash []
  | '\\' :: c :: rest =>
    if multiline && isSpaceOrNewline c then
      match (c :: rest).dropWhile isSpace, dropWhile_length_le isSpace (c :: rest) with
      | [], _ => fail .unterminatedText []
      | next :: later, _ =>
        -- only blanks may stand between the backslash and the end of its line
        if next = '\n' then escaped multiline (later.dropWhile isSpaceOrNewline)
        else fail .unescapedBackslash (next :: later)
    else if c = 'u' then
      match escapedScalar 4 rest with
      | .error fault => .error fault
      | .ok scalar => withFront scalar (escaped multiline (rest.drop 4))
    else if c = 'U' then
      match escapedScalar 8 rest with
      | .error fault => .error fault
      | .ok scalar => withFront scalar (escaped multiline (rest.drop 8))
    else
      match simpleEscape? c with
      | some meant => withFront meant (escaped multiline rest)
      | none => fail .unescapedBackslash rest
  | c :: rest =>
    if c = '\x22' ∧ !multiline then .ok ([], rest)
    else if c = '\x22' ∧ rest.take 2 = ['\x22', '\x22'] then .ok ([], rest.drop 2)
    else if isControl c && !(multiline && c = '\n') then fail (.illegalCharacter c) (c :: rest)
    else withFront c (escaped multiline rest)
termination_by text.length
decreasing_by
  all_goals simp only [List.length_cons, List.length_drop] at *
  · have := dropWhile_length_le isSpaceOrNewline later
    omega
  all_goals omega

/-- At most two more marks before the closing ones belong to a text on several lines. -/
def withExtraMarks (mark : Char) : List Char × List Char → List Char × List Char
  | (text, rest) =>
    let extra := (rest.take 2).takeWhile (· = mark)
    (text ++ extra, rest.drop extra.length)

/-- A line end right after the opening marks is not part of a text on several lines. -/
def dropFirstNewline : List Char → List Char
  | '\n' :: rest => rest
  | text => text

def singleQuoted : List Char → Read (List Char) := literal ['\x27'] isControl

/-- Reads a text that begins with a quotation mark and may span lines if it begins with three. -/
def quotedText (mark : Char) (rest : List Char) : Read (List Char) :=
  if rest.take 2 = [mark, mark] then
    let body := dropFirstNewline (rest.drop 2)
    let read :=
      if mark = '\x22' then escaped true body
      else literal [mark, mark, mark] (fun c => isControl c && c ≠ '\n') body
    read.map (withExtraMarks mark)
  else if mark = '\x22' then escaped false rest
  else singleQuoted rest

def isBareKeyCharacter (c : Char) : Bool := c.isAlphanum || c = '-' || c = '_'

def keyPart (text : List Char) : Read (List Char) :=
  match text with
  | '\x27' :: rest => singleQuoted rest
  | '\x22' :: rest => escaped false rest
  | text =>
    match text.takeWhile isBareKeyCharacter with
    | [] => fail .invalidKeyStart text
    | part => .ok (part, text.dropWhile isBareKeyCharacter)

/-- Reads a dotted key with blanks around its dots and after it. Each dot costs a unit of fuel. -/
def keyWithin : Nat → List Char → Except Fault (Key × List Char)
  | 0, text => fail .invalidKeyStart text
  | fuel + 1, text => do
    let (part, rest) ← keyPart text
    match skipSpaces rest with
    | '.' :: later =>
      let (parts, rest) ← keyWithin fuel (skipSpaces later)
      return (part :: parts, rest)
    | rest => return ([part], rest)

def key (text : List Char) : Read Key := keyWithin (text.length + 1) text

end Astra.Config
