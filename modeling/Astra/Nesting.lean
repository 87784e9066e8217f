import Astra.Color.Rgb
import Astra.Journal
import Astra.Token.Pairing

/-!
# Open scopes

The stack of the delimiters that are open at some point of a token list. A quote-like scope on top
absorbs further openers: they are content and open nothing.

Clients of a tracker open and close scopes and ask about the innermost one, in any order and with
any token. A call that is refused leaves the scopes as they were.
-/

namespace Astra

/-- An open scope: the token that opened it, its color, and how deep it is; the outermost has
depth one. -/
structure Scope where
  opener : Token
  color : Rgb
  depth : Nat
  deriving DecidableEq, Repr

/-- The open scopes, innermost first. -/
structure Tracker where
  scopes : List Scope := []
  deriving DecidableEq, Repr

namespace Tracker

def depth (t : Tracker) : Nat := t.scopes.length

def top? (t : Tracker) : Option Scope := t.scopes.head?

def innermost? (t : Tracker) : Option Category := t.top?.map (·.opener.category)

def inQuote (t : Tracker) : Bool := t.innermost?.any Category.isQuoteLike

/-- Opens a scope, unless the innermost one absorbs the opener. -/
def enter? (t : Tracker) (opener : Token) (color : Rgb) : Option (Scope × Tracker) :=
  if t.inQuote then none
  else
    let scope : Scope := ⟨opener, color, t.depth + 1⟩
    some (scope, ⟨scope :: t.scopes⟩)

/-- Closes the innermost scope, if the closer requires its opener. -/
def leave? (t : Tracker) (closer : Token) : Option (Scope × Tracker) :=
  match t.scopes with
  | [] => none
  | scope :: rest =>
    if closer.category.opener? = some scope.opener.category then some (scope, ⟨rest⟩) else none

def enter (t : Tracker) (token : Token) (color : Rgb) :
    Except DelimiterFault (Option Scope × Tracker) :=
  if token.role = .opener then
    match t.enter? token color with
    | some (scope, after) => .ok (some scope, after)
    | none => .ok (none, t)
  else .error (.notOpening token.category)

/-- Whether a token closes the innermost scope. When a scope is open, the token must be a closer. -/
def isClosedBy (t : Tracker) (token : Token) : Except DelimiterFault Bool :=
  match t.top? with
  | none => .ok false
  | some scope => do
    let opener ← Delimiters.standard.requiredOpener token.category
    return opener = scope.opener.category

/-- Closes the innermost scope with a token; a mismatch closes nothing and is noted. When a scope
is open, the token must be a closer. -/
def leave (t : Tracker) (token : Token) :
    Except DelimiterFault (Option Scope × Tracker × List Note) := do
  if ← t.isClosedBy token then
    match t.leave? token with
    | some (scope, after) => return (some scope, after, [])
    | none => return (none, t, [])
  else return (none, t, [.mismatch token t.innermost?])

inductive Call where
  | enter (token : Token) (color : Rgb)
  | leave (token : Token)
  | isClosedBy (token : Token)
  deriving DecidableEq, Repr

inductive Reply where
  | entered (scope : Option Scope)
  | left (scope : Option Scope)
  | closes (answer : Bool)
  deriving DecidableEq, Repr

structure Turn where
  reply : Except DelimiterFault Reply
  notes : List Note
  after : Tracker

def perform (t : Tracker) : Call → Turn
  | .enter token color =>
    match t.enter token color with
    | .ok (scope, after) => ⟨.ok (.entered scope), [], after⟩
    | .error fault => ⟨.error fault, [], t⟩
  | .leave token =>
    match t.leave token with
    | .ok (scope, after, notes) => ⟨.ok (.left scope), notes, after⟩
    | .error fault => ⟨.error fault, [], t⟩
  | .isClosedBy token =>
    match t.isClosedBy token with
    | .ok answer => ⟨.ok (.closes answer), [], t⟩
    | .error fault => ⟨.error fault, [], t⟩

end Tracker

end Astra
