import Astra.Lexing.Piece
import Astra.Token

/-!
# Scanning

A scan cuts a source into pieces, one after the other, until the source ends or a NUL character is
met outside every lexeme. Each step consumes at least one character, so a scan ends.
-/

namespace Astra.Lexing

/-- An enclosure that has been entered and not left, with the offset of its opening text. -/
structure Entered where
  enclosure : Enclosure
  start : Nat
  deriving DecidableEq, Repr

def Entered.opener (entered : Entered) : Token :=
  ⟨entered.enclosure.opener, entered.start, entered.enclosure.openingText.length⟩

/-- A point of a scan: how far it has come, the character before that point, the enclosure it is
in, and the text ahead. -/
structure State where
  offset : Nat
  previous : Option Char
  within : Option Entered
  ahead : List Char
  deriving DecidableEq, Repr

namespace State

def start (source : List Char) : State := ⟨0, none, none, source⟩

/-- The enclosure after a piece. Outside an enclosure an opening lexeme enters one; inside, only
the closer of that enclosure leaves it. -/
def withinAfter (s : State) : Piece → Option Entered
  | .lexeme category _ =>
    match s.within with
    | none => (Enclosure.ofOpener? category).map (⟨·, s.offset⟩)
    | some entered => if category = entered.enclosure.closer then none else some entered
  | _ => s.within

def advance (s : State) (piece : Piece) : State where
  offset := s.offset + piece.text.length
  previous := piece.text.getLast?.or s.previous
  within := s.withinAfter piece
  ahead := s.ahead.drop piece.text.length

end State

inductive Ending where
  | complete
  | unterminated (entered : Entered)
  | nul (offset : Nat)
  deriving DecidableEq, Repr

/-- What one step of a scan does: it cuts off a piece, or ends. -/
inductive Step where
  | piece (piece : Piece)
  | ending (ending : Ending)
  deriving DecidableEq, Repr

def State.step (s : State) : Step :=
  match s.ahead with
  | [] =>
    match s.within with
    | none => .ending .complete
    | some entered => .ending (.unterminated entered)
  | c :: rest =>
    -- a null character ends a scan wherever it stands
    if c = '\x00' then .ending (.nul s.offset)
    else .piece (pieceAt (s.within.map Entered.enclosure) s.previous c rest)

theorem State.advance_ahead_lt {s : State} {piece : Piece} (h : s.step = .piece piece) :
    (s.advance piece).ahead.length < s.ahead.length := by
  unfold State.step at h
  split at h
  · split at h <;> cases h
  · next c rest hahead =>
    split at h
    · cases h
    · cases h
      have hne := pieceAt_text_ne_nil (s.within.map Entered.enclosure) s.previous c rest
      have hpos := List.length_pos_iff.mpr hne
      simp only [State.advance, List.length_drop, hahead, List.length_cons]
      omega

/-- The pieces of a source and how its scan ends. -/
structure Scan where
  pieces : List Piece
  ending : Ending
  deriving DecidableEq, Repr

def State.scan (s : State) : Scan :=
  match _h : s.step with
  | .ending ending => ⟨[], ending⟩
  | .piece piece =>
    let later := (s.advance piece).scan
    ⟨piece :: later.pieces, later.ending⟩
termination_by s.ahead.length
decreasing_by exact State.advance_ahead_lt _h

def scan (source : List Char) : Scan := (State.start source).scan

def tokensFrom (offset : Nat) : List Piece → List Token
  | [] => []
  | .lexeme category text :: rest =>
    ⟨category, offset, text.length⟩ :: tokensFrom (offset + text.length) rest
  | piece :: rest => tokensFrom (offset + piece.text.length) rest

end Astra.Lexing
