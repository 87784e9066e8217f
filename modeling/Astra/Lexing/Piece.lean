import Astra.Lexing.Spelling
import Astra.Text.Characters

/-!
# Pieces of a source

A source is cut into pieces from left to right: blanks, lexemes, and characters that belong to no
lexeme. What the next piece is depends on the text ahead, on the character before it, and on the
enclosure it stands in. A piece is never empty.
-/

namespace Astra.Lexing

inductive Piece where
  | blank (c : Char)
  | lexeme (category : Category) (text : List Char)
  /-- A character that begins no lexeme. -/
  | stray (c : Char)
  /-- A backslash with nothing after it. -/
  | danglingEscape
  deriving DecidableEq, Repr

def Piece.text : Piece → List Char
  | blank c => [c]
  | lexeme _ text => text
  | stray c => [c]
  | danglingEscape => ['\\']

def lineComment? : List Char → Option Category
  | '/' :: '/' :: _ => some .eolSlashComment
  | '#' :: '#' :: '#' :: _ => some .docHashComment
  | '#' :: ' ' :: _ => some .eolHashComment
  | '#' :: '\t' :: _ => some .eolHashComment
  | _ => none

/-- The rest of the line, without the carriage return that ends it together with a line feed. -/
def restOfLine (text : List Char) : List Char :=
  let line := text.takeWhile (· ≠ '\n')
  if line.getLast? = some '\r' then line.dropLast else line

/-- An angle with blanks on both sides compares; any other is a bracket. -/
def angle? (previous : Option Char) (c : Char) (next : Option Char) : Option Category :=
  let spaced := previous.any Text.isBlank && next.any Text.isBlank
  match c with
  | '<' => some (if spaced then .lessThan else .openAngle)
  | '>' => some (if spaced then .greaterThan else .closeAngle)
  | _ => none

/-- The operator that a text begins with; two colons directly before a letter are of a category of
their own. -/
def operator? (text : List Char) : Option (Category × List Char) :=
  match leadingOperator? text with
  | some (.doubleColonAssigner, spelling) =>
    if (text[2]?).any Text.isLetter then some (.doubleColonPrefix, spelling)
    else some (.doubleColonAssigner, spelling)
  | found => found

def closing? (within : Option Enclosure) (text : List Char) : Option (Category × List Char) :=
  match within with
  | some enclosure =>
    if enclosure.closingText.isPrefixOf text then some (enclosure.closer, enclosure.closingText)
    else none
  | none => none

def comment? (within : Option Enclosure) (text : List Char) : Option (Category × List Char) :=
  match within with
  | some _ => none
  | none => (lineComment? text).map (·, restOfLine text)

/-- The lexeme that `c :: rest` begins with in any place. -/
def plainLexeme? (previous : Option Char) (c : Char) (rest : List Char) :
    Option (Category × List Char) :=
  match c, rest with
  | '/', '*' :: _ => some (.openBlockComment, ['/', '*'])
  | '*', '/' :: _ => some (.closeBlockComment, ['*', '/'])
  | '\\', next :: _ => some (.escape, ['\\', next])
  | c, rest =>
    match Enclosure.ofQuote? c with
    | some enclosure => some (enclosure.opener, [c])
    | none =>
      match bracket? c with
      | some category => some (category, [c])
      | none =>
        if isWordChar c then
          let word := leadingWord (c :: rest)
          some (wordCategory word, word)
        else
          match operator? (c :: rest) with
          | some found => some found
          | none => (angle? previous c rest.head?).map (·, [c])

/-- The piece that `c :: rest` begins with. -/
def pieceAt (within : Option Enclosure) (previous : Option Char) (c : Char) (rest : List Char) :
    Piece :=
  if Text.isBlank c then .blank c
  else
    -- inside an enclosure its closing text comes before all else
    match (closing? within (c :: rest)).or ((comment? within (c :: rest)).or
        (plainLexeme? previous c rest)) with
    | some (category, text) => .lexeme category text
    | none => if c = '\\' then .danglingEscape else .stray c

theorem leadingOperator?_ne_nil {text spelling : List Char} {category : Category}
    (h : leadingOperator? text = some (category, spelling)) : spelling ≠ [] := by
  intro hs
  subst hs
  simp only [leadingOperator?] at h
  obtain ⟨n, _, hn⟩ := List.exists_of_findSome?_eq_some h
  cases hop : operators.lookup (text.take n) with
  | none => simp [hop] at hn
  | some found =>
    simp only [hop, Option.map_some, Option.some.injEq, Prod.mk.injEq] at hn
    rw [hn.2] at hop
    have hnil : operators.lookup ([] : List Char) = none := by decide
    simp [hnil] at hop

theorem operator?_ne_nil {text spelling : List Char} {category : Category}
    (h : operator? text = some (category, spelling)) : spelling ≠ [] := by
  unfold operator? at h
  split at h
  · next found hfound =>
    have hne := leadingOperator?_ne_nil hfound
    split at h <;> simp_all
  · exact leadingOperator?_ne_nil h

theorem leadingWord_ne_nil {c : Char} (rest : List Char) (h : isWordChar c = true) :
    leadingWord (c :: rest) ≠ [] := by
  simp only [leadingWord, List.takeWhile_cons, h, if_true]
  split
  · split <;> simp
  · simp

theorem restOfLine_cons_cons {a b : Char} (tail : List Char) (ha : a ≠ '\n') (hb : b ≠ '\n') :
    restOfLine (a :: b :: tail) ≠ [] := by
  simp only [restOfLine, List.takeWhile_cons, ha, hb, ne_eq, not_false_eq_true, decide_true, if_true]
  split <;> simp

theorem restOfLine_ne_nil {text : List Char} {category : Category}
    (h : lineComment? text = some category) : restOfLine text ≠ [] := by
  unfold lineComment? at h
  split at h
  · exact restOfLine_cons_cons _ (by decide) (by decide)
  · exact restOfLine_cons_cons _ (by decide) (by decide)
  · exact restOfLine_cons_cons _ (by decide) (by decide)
  · exact restOfLine_cons_cons _ (by decide) (by decide)
  · cases h

theorem closing?_ne_nil {within : Option Enclosure} {text lexeme : List Char} {category : Category}
    (h : closing? within text = some (category, lexeme)) : lexeme ≠ [] := by
  unfold closing? at h
  split at h
  · next enclosure =>
    split at h
    · cases h
      cases enclosure <;> simp [Enclosure.closingText, Enclosure.openingText]
    · cases h
  · cases h

theorem comment?_ne_nil {within : Option Enclosure} {text lexeme : List Char} {category : Category}
    (h : comment? within text = some (category, lexeme)) : lexeme ≠ [] := by
  unfold comment? at h
  split at h
  · cases h
  · cases hc : lineComment? text with
    | none => simp [hc] at h
    | some found =>
      simp only [hc, Option.map_some, Option.some.injEq, Prod.mk.injEq] at h
      exact h.2 ▸ restOfLine_ne_nil hc

theorem plainLexeme?_ne_nil {previous : Option Char} {c : Char} {rest lexeme : List Char}
    {category : Category} (h : plainLexeme? previous c rest = some (category, lexeme)) :
    lexeme ≠ [] := by
  unfold plainLexeme? at h
  split at h
  · cases h; simp
  · cases h; simp
  · cases h; simp
  · split at h
    · cases h; simp
    · split at h
      · cases h; simp
      · split at h
        · next hw => cases h; exact leadingWord_ne_nil _ hw
        · split at h
          · next hop => cases h; exact operator?_ne_nil hop
          · cases ha : angle? previous c rest.head? with
            | none => simp [ha] at h
            | some found =>
              simp only [ha, Option.map_some, Option.some.injEq, Prod.mk.injEq] at h
              simp [← h.2]

theorem pieceAt_text_ne_nil (within : Option Enclosure) (previous : Option Char) (c : Char)
    (rest : List Char) : (pieceAt within previous c rest).text ≠ [] := by
  unfold pieceAt
  split
  · simp [Piece.text]
  · split
    · next category text h =>
      show text ≠ []
      cases hclose : closing? within (c :: rest) with
      | some found =>
        simp only [hclose, Option.some_or, Option.some.injEq] at h
        exact closing?_ne_nil (h ▸ hclose)
      | none =>
        cases hcomment : comment? within (c :: rest) with
        | some found =>
          simp only [hclose, hcomment, Option.none_or, Option.some_or, Option.some.injEq] at h
          exact comment?_ne_nil (h ▸ hcomment)
        | none =>
          simp only [hclose, hcomment, Option.none_or] at h
          exact plainLexeme?_ne_nil h
    · split <;> simp [Piece.text]

end Astra.Lexing
