import Astra.Assoc
import Astra.Config.Fault
import Astra.Config.Moment
import Astra.Number.Binary64
import Astra.Text.Writing

/-!
# Configuration values

The values that a configuration file can hold, and how they are named and shown in complaints.
-/

namespace Astra.Config

inductive Value where
  | text (text : List Char)
  | whole (n : Int)
  | real (x : Float)
  | flag (b : Bool)
  | moment (moment : Moment)
  | array (items : List Value)
  | table (entries : List (List Char × Value))

/-- A table: values by key, in the order of their first mention. -/
abbrev Table := List (List Char × Value)

namespace Value

def kind : Value → String
  | text _ => "str"
  | whole _ => "int"
  | real _ => "float"
  | flag _ => "bool"
  | moment (.date _) => "date"
  | moment (.clock _) => "time"
  | moment (.dateTime ..) => "datetime"
  | array _ => "list"
  | table _ => "dict"

inductive ShowFault where
  /-- A whole number in it has too many digits. -/
  | numeral
  | tooDeep
  deriving DecidableEq, Repr

/-- The levels that a value takes up without those of its parts. -/
def ownLevels : Value → Nat
  | moment m => m.levels
  | _ => 1

/-- Whether there is room for some levels from the given one on. -/
def checkLevels (room : Room) (level count : Nat) : Except ShowFault Unit :=
  if (List.range count).all fun n => room.showing (level + n) then .ok () else .error .tooDeep

mutual

/-- A value as it is shown in complaints, when it stands at the given level of nesting. The first
fault that is met from left to right is reported. -/
def displayAt (room : Room) (level : Nat) (value : Value) : Except ShowFault (List Char) := do
  checkLevels room level value.ownLevels
  match value with
  | text s => return Text.quoted s
  | whole n =>
    if n.natAbs < Text.numeralBound then .ok (Text.Numeral.ofInt n) else .error .numeral
  | real x => return Number.writeReal .standard x
  | flag b => return (if b then "True" else "False").toList
  | moment m => return m.display
  | array items =>
    let shown ← displayItems room (level + 1) items
    return '[' :: List.intercalate ", ".toList shown ++ [']']
  | table entries =>
    let shown ← displayEntries room (level + 1) entries
    return '\x7b' :: List.intercalate ", ".toList shown ++ ['\x7d']

def displayItems (room : Room) (level : Nat) : List Value → Except ShowFault (List (List Char))
  | [] => .ok []
  | item :: rest => do
    let shown ← displayAt room level item
    return shown :: (← displayItems room level rest)

def displayEntries (room : Room) (level : Nat) :
    List (List Char × Value) → Except ShowFault (List (List Char))
  | [] => .ok []
  | (key, value) :: rest => do
    let shown ← displayAt room level value
    return (Text.quoted key ++ ": ".toList ++ shown) :: (← displayEntries room level rest)

end

def display (room : Room) (value : Value) : Except ShowFault (List Char) := displayAt room 1 value

end Value

end Astra.Config
