import Astra.Source
import Astra.Text.Writing

/-!
# Faults of configuration texts

What can be wrong with the text of a configuration file, and where. A fault records how much of the
text was still ahead when it was found, from which its place is computed in the end.
-/

namespace Astra.Config

abbrev Key := List (List Char)

/-- A key between parentheses, with a comma after a part that stands alone. -/
def Key.display (key : Key) : List Char :=
  match key with
  | [part] => '(' :: Text.quoted part ++ ",)".toList
  | parts => '(' :: List.intercalate ", ".toList (parts.map Text.quoted) ++ [')']

inductive Cause where
  | invalidStatement
  | invalidValue
  | expectedLineEnd
  | expectedEquals
  | expectedTableEnd
  | expectedArrayEnd
  | overwrites
  | declaredTwice (key : Key)
  | immutableNamespace (key : Key)
  | redefinedNamespace (key : Key)
  | invalidKeyStart
  | unclosedArray
  | unclosedTable
  | duplicateKey (part : List Char)
  | unescapedBackslash
  | invalidHex
  | notScalar
  | unterminatedText
  | illegalCharacter (c : Char)
  | invalidCharacter (c : Char)
  | expected (text : List Char)
  | invalidMoment
  deriving DecidableEq, Repr

def Cause.message : Cause → List Char
  | invalidStatement => "Invalid statement".toList
  | invalidValue => "Invalid value".toList
  | expectedLineEnd => "Expected newline or end of document after a statement".toList
  | expectedEquals => "Expected '=' after a key in a key/value pair".toList
  | expectedTableEnd => "Expected ']' at the end of a table declaration".toList
  | expectedArrayEnd => "Expected ']]' at the end of an array declaration".toList
  | overwrites => "Cannot overwrite a value".toList
  | declaredTwice key => "Cannot declare ".toList ++ key.display ++ " twice".toList
  | immutableNamespace key => "Cannot mutate immutable namespace ".toList ++ key.display
  | redefinedNamespace key => "Cannot redefine namespace ".toList ++ key.display
  | invalidKeyStart => "Invalid initial character for a key part".toList
  | unclosedArray => "Unclosed array".toList
  | unclosedTable => "Unclosed inline table".toList
  | duplicateKey part => "Duplicate inline table key ".toList ++ Text.quoted part
  | unescapedBackslash => "Unescaped '\\' in a string".toList
  | invalidHex => "Invalid hex value".toList
  | notScalar => "Escaped character is not a Unicode scalar value".toList
  | unterminatedText => "Unterminated string".toList
  | illegalCharacter c => "Illegal character ".toList ++ Text.quoted [c]
  | invalidCharacter c => "Found invalid character ".toList ++ Text.quoted [c]
  | expected text => "Expected ".toList ++ Text.quoted text
  | invalidMoment => "Invalid date or datetime".toList

/-- The room that a machine has for values within values. A value is read and shown by calls, for
which the calls for the values around it wait. How many calls can wait depends on the machine and on
what is waiting already, and how many more are needed on the text of the value. -/
structure Room where
  /-- The complaint, if there is one, when the value at the front of a text is read while so many
  calls wait for it. -/
  reading : Nat → List Char → Option (List Char)
  /-- Whether a value can be shown so many levels deep, where the outermost one is at level one. -/
  showing : Nat → Bool

/-- Room for values that are nested in any way. -/
def Room.unbounded : Room := ⟨fun _ _ => none, fun _ => true⟩

/-- A fault of a configuration text. A numeral that is too long and a value that is nested too
deeply are refused without a place. -/
inductive Fault where
  | grammar (cause : Cause) (ahead : Nat)
  | numeral (text : List Char) (fault : Text.Numeral.Fault)
  | tooDeep (complaint : List Char)
  deriving DecidableEq, Repr

def place (document : List Char) (ahead : Nat) : List Char :=
  if ahead = 0 then "end of document".toList
  else
    let position := Position.ofOffset document (document.length - ahead : Nat)
    "line ".toList ++ Text.Numeral.ofInt position.line ++
      ", column ".toList ++ Text.Numeral.ofInt position.column

def Cause.messageAt (document : List Char) (ahead : Nat) (cause : Cause) : List Char :=
  cause.message ++ " (at ".toList ++ place document ahead ++ [')']

/-- What is read at the front of a text, and the text after it. -/
abbrev Read (α : Type) := Except Fault (α × List Char)

def fail {α : Type} (cause : Cause) (ahead : List Char) : Except Fault α :=
  .error (.grammar cause ahead.length)

end Astra.Config
