import Astra.Config.Namespace
import Astra.Config.Number

/-!
# Reading configuration files

Values, keys with their values, declarations of tables, and whole documents. Every step passes at
least one character, so the length of a text bounds the steps that reading it takes.
-/

namespace Astra.Config

def atPlace {α : Type} (ahead : List Char) (result : Except Cause α) : Except Fault α :=
  result.mapError (.grammar · ahead.length)

/-- Reads a value that is neither an array nor a table. -/
def scalar (text : List Char) : Except Fault (Value × List Char) :=
  if "true".toList.isPrefixOf text then .ok (.flag true, text.drop 4)
  else if "false".toList.isPrefixOf text then .ok (.flag false, text.drop 5)
  else
    match Moment.leading? text with
    | some (moment, rest) =>
      if moment.exists? then .ok (.moment moment, rest) else fail .invalidMoment text
    | none => (number? text).getD (fail .invalidValue text)

def equalsSign : List Char → Except Fault (List Char)
  | '=' :: rest => .ok (skipSpaces rest)
  | text => fail .expectedEquals text

def checkRoom (room : Room) (calls : Nat) (text : List Char) : Except Fault Unit :=
  match room.reading calls text with
  | none => .ok ()
  | some complaint => .error (.tooDeep complaint)

mutual

/-- Reads a value for which the given number of calls wait: two for each array around it, and three
for each inline table. Each value, item and entry costs a unit of fuel. -/
def valueWithin (room : Room) (fuel calls : Nat) (text : List Char) :
    Except Fault (Value × List Char) :=
  match fuel with
  | 0 => fail .invalidValue text
  | fuel + 1 => do
    checkRoom room calls text
    match text with
    | '\x22' :: rest => (quotedText '\x22' rest).map fun (s, rest) => (.text s, rest)
    | '\x27' :: rest => (quotedText '\x27' rest).map fun (s, rest) => (.text s, rest)
    | '[' :: rest => itemsWithin room fuel (calls + 2) [] rest
    | '\x7b' :: rest =>
      -- unlike in an array, no comma may stand before the closing brace
      match skipSpaces rest with
      | '\x7d' :: rest => .ok (.table [], rest)
      | rest => entriesWithin room fuel (calls + 3) [] [] rest
    | text => scalar text

def itemsWithin (room : Room) (fuel calls : Nat) (items : List Value) (text : List Char) :
    Except Fault (Value × List Char) :=
  match fuel with
  | 0 => fail .unclosedArray text
  | fuel + 1 => do
    match ← skipVoid false text with
    -- here the last item had a comma after it, or there is none
    | ']' :: rest => .ok (.array items.reverse, rest)
    | rest =>
      let (item, rest) ← valueWithin room fuel calls rest
      match ← skipVoid false rest with
      | ']' :: rest => .ok (.array (item :: items).reverse, rest)
      | ',' :: rest => itemsWithin room fuel calls (item :: items) rest
      | rest => fail .unclosedArray rest

def entriesWithin (room : Room) (fuel calls : Nat) (marks : List Mark) (table : Table)
    (text : List Char) : Except Fault (Value × List Char) :=
  match fuel with
  | 0 => fail .unclosedTable text
  | fuel + 1 => do
    let (key, rest) ← key text
    let rest ← equalsSign rest
    let (value, rest) ← valueWithin room fuel calls rest
    let table ← atPlace rest (assignInline marks key value table)
    match skipSpaces rest with
    | '\x7d' :: rest => .ok (.table table, rest)
    | ',' :: rest => entriesWithin room fuel calls (freeze key value marks) table (skipSpaces rest)
    | rest => fail .unclosedTable rest

end

def value (room : Room) (text : List Char) : Except Fault (Value × List Char) :=
  valueWithin room (2 * text.length + 2) 0 text

/-- Reads the declaration of an item of an array of tables, after its two opening brackets. -/
def itemDeclaration (document : Document) (text : List Char) :
    Except Fault (Document × List Char) := do
  let (key, rest) ← key (skipSpaces text)
  let document ← atPlace rest (document.declareItem key)
  match rest with
  | ']' :: ']' :: rest => .ok (document, rest)
  | rest => fail .expectedArrayEnd rest

def tableDeclaration (document : Document) (text : List Char) :
    Except Fault (Document × List Char) := do
  let (key, rest) ← key (skipSpaces text)
  let document ← atPlace rest (document.declareTable key)
  match rest with
  | ']' :: rest => .ok (document, rest)
  | rest => fail .expectedTableEnd rest

def assignment (room : Room) (document : Document) (text : List Char) :
    Except Fault (Document × List Char) := do
  let (key, rest) ← key text
  let rest ← equalsSign rest
  let (value, rest) ← value room rest
  let document ← atPlace rest (document.assign key value)
  return (document, rest)

def isKeyStart (c : Char) : Bool := isBareKeyCharacter c || c = '\x22' || c = '\x27'

/-- Reads what a line holds in front of its comment. -/
def statement (room : Room) (document : Document) (text : List Char) :
    Except Fault (Document × List Char) :=
  match text with
  | [] => .ok (document, [])
  | '[' :: '[' :: rest => itemDeclaration document rest
  | '[' :: rest => tableDeclaration document rest
  | c :: rest =>
    if isKeyStart c then assignment room document text
    else if c = '#' ∨ c = '\n' then .ok (document, text)
    else fail .invalidStatement (c :: rest)

/-- Reads statement after statement. Each costs a unit of fuel. -/
def statementsWithin (room : Room) (fuel : Nat) (document : Document) (text : List Char) :
    Except Fault Document :=
  match fuel with
  | 0 => .ok document
  | fuel + 1 => do
    let (document, rest) ← statement room document (skipSpaces text)
    match ← skipComment (skipSpaces rest) with
    | [] => .ok document
    | '\n' :: rest => statementsWithin room fuel document rest
    | rest => fail .expectedLineEnd rest

/-- A line end may be written with a carriage return in front. -/
def unifyLineEnds : List Char → List Char
  | '\r' :: '\n' :: rest => '\n' :: unifyLineEnds rest
  | c :: rest => c :: unifyLineEnds rest
  | [] => []

/-- A complaint about a configuration text: that it is not well formed, in which case it is told
where, that it holds a numeral that is too long, or that it is nested too deeply. -/
inductive ReadFault where
  | malformed (message : List Char)
  | numeral (text : List Char) (fault : Text.Numeral.Fault)
  | tooDeep (complaint : List Char)
  deriving DecidableEq, Repr

def read (room : Room) (text : List Char) : Except ReadFault Table :=
  let text := unifyLineEnds text
  match statementsWithin room (text.length + 1) .empty text with
  | .ok document => .ok document.root
  | .error (.grammar cause ahead) => .error (.malformed (cause.messageAt text ahead))
  | .error (.numeral digits fault) => .error (.numeral digits fault)
  | .error (.tooDeep complaint) => .error (.tooDeep complaint)

end Astra.Config
