import Astra.Lexing.Piece

/-!
# What a piece can be

The one place where the cutting of a piece is opened. `Made` says how each piece comes about, and
`Cut` how it lies at the start of the text ahead: a lexeme is a delimiter of an enclosure, spelled
as that delimiter is, or it is of an ordinary category. What later modules say about scans rests on
these two and not on the tables.
-/

namespace Astra

theorem Assoc.mem_of_lookup {κ β : Type} [BEq κ] [LawfulBEq κ] {key : κ} {value : β}
    {table : List (κ × β)} (found : table.lookup key = some value) : (key, value) ∈ table := by
  obtain ⟨before, after, rfl, _⟩ := List.lookup_eq_some_iff.mp found
  exact List.mem_append_right _ List.mem_cons_self

namespace Lexing

/-- Whether a category neither delimits an enclosure nor ends a text. -/
def isOrdinary : Category → Bool
  | .openDoubleQuote | .closeDoubleQuote | .openSingleQuote | .closeSingleQuote
  | .openBacktick | .closeBacktick | .openBlockComment | .closeBlockComment | .endOfText => false
  | _ => true

/-- How a piece lies at the start of the text ahead, inside an enclosure or outside of any. -/
inductive Cut (within : Option Enclosure) (ahead : List Char) : Piece → Prop where
  | blank {c : Char} (begins : [c] <+: ahead) (isBlank : Text.isBlank c = true) :
      Cut within ahead (.blank c)
  | closing (enclosure : Enclosure) (inside : within = some enclosure)
      (begins : enclosure.closingText <+: ahead) :
      Cut within ahead (.lexeme enclosure.closer enclosure.closingText)
  | opening (enclosure : Enclosure) (begins : enclosure.openingText <+: ahead) :
      Cut within ahead (.lexeme enclosure.opener enclosure.openingText)
  /-- The closing text of a block comment where none is to be closed. -/
  | foreignClosing (elsewhere : within ≠ some .blockComment) (begins : ['*', '/'] <+: ahead) :
      Cut within ahead (.lexeme .closeBlockComment ['*', '/'])
  | ordinary {category : Category} {text : List Char} (isOrdinary : isOrdinary category = true)
      (nonempty : text ≠ []) (begins : text <+: ahead) : Cut within ahead (.lexeme category text)
  | stray {c : Char} (begins : [c] <+: ahead) (notBlank : Text.isBlank c = false) :
      Cut within ahead (.stray c)
  | danglingEscape (begins : ['\\'] <+: ahead) : Cut within ahead .danglingEscape

theorem Enclosure.closingText_ne_nil (enclosure : Enclosure) : enclosure.closingText ≠ [] := by
  cases enclosure <;> exact List.cons_ne_nil _ _

theorem Enclosure.openingText_ne_nil (enclosure : Enclosure) : enclosure.openingText ≠ [] := by
  cases enclosure <;> exact List.cons_ne_nil _ _

theorem Cut.text_begins {within : Option Enclosure} {ahead : List Char} {piece : Piece}
    (cut : Cut within ahead piece) : piece.text <+: ahead := by
  cases cut with
  | blank begins _ => exact begins
  | closing _ _ begins => exact begins
  | opening _ begins => exact begins
  | foreignClosing _ begins => exact begins
  | ordinary _ _ begins => exact begins
  | stray begins _ => exact begins
  | danglingEscape begins => exact begins

theorem Cut.text_ne_nil {within : Option Enclosure} {ahead : List Char} {piece : Piece}
    (cut : Cut within ahead piece) : piece.text ≠ [] := by
  cases cut with
  | closing enclosure _ _ => exact enclosure.closingText_ne_nil
  | opening enclosure _ => exact enclosure.openingText_ne_nil
  | ordinary _ nonempty _ => exact nonempty
  | _ => exact List.cons_ne_nil _ _

/-- Only the end of a scan makes the token at the end of a text. -/
theorem Cut.category_ne_endOfText {within : Option Enclosure} {ahead : List Char}
    {category : Category} {text : List Char} (cut : Cut within ahead (.lexeme category text)) :
    category ≠ .endOfText := by
  cases cut with
  | closing enclosure _ _ => cases enclosure <;> decide
  | opening enclosure _ => cases enclosure <;> decide
  | foreignClosing _ _ => decide
  | ordinary isOrdinary _ _ =>
    intro h
    subst h
    cases isOrdinary

section Spellings

theorem leadingOperator?_cut {text spelling : List Char} {category : Category}
    (found : leadingOperator? text = some (category, spelling)) :
    spelling <+: text ∧ isOrdinary category = true := by
  obtain ⟨n, _, hn⟩ := List.exists_of_findSome?_eq_some found
  obtain ⟨value, hget, hvalue⟩ := Option.map_eq_some_iff.mp hn
  obtain ⟨rfl, rfl⟩ := Prod.mk.inj hvalue
  refine ⟨List.take_prefix n text, ?_⟩
  have all : ∀ entry ∈ operators, isOrdinary entry.2 = true := by decide
  exact all _ (Assoc.mem_of_lookup hget)

theorem operator?_cut {text spelling : List Char} {category : Category}
    (found : operator? text = some (category, spelling)) :
    spelling <+: text ∧ isOrdinary category = true := by
  unfold operator? at found
  split at found
  · rename_i spelling' hlead
    have lead := leadingOperator?_cut hlead
    split at found
    · obtain ⟨rfl, rfl⟩ := Prod.mk.inj (Option.some.inj found)
      exact ⟨lead.1, rfl⟩
    · obtain ⟨rfl, rfl⟩ := Prod.mk.inj (Option.some.inj found)
      exact lead
  · exact leadingOperator?_cut found

theorem bracket?_isOrdinary {c : Char} {category : Category} (found : bracket? c = some category) :
    isOrdinary category = true := by
  unfold bracket? at found
  split at found <;> cases found <;> rfl

theorem angle?_isOrdinary {previous next : Option Char} {c : Char} {category : Category}
    (found : angle? previous c next = some category) : isOrdinary category = true := by
  unfold angle? at found
  split at found
  · cases found
    split <;> rfl
  · cases found
    split <;> rfl
  · cases found

theorem lineComment?_isOrdinary {text : List Char} {category : Category}
    (found : lineComment? text = some category) : isOrdinary category = true := by
  unfold lineComment? at found
  split at found <;> cases found <;> rfl

theorem wordCategory_isOrdinary (text : List Char) : isOrdinary (wordCategory text) = true := by
  rw [wordCategory]
  split
  · split <;> rfl
  · split
    · rfl
    · split <;> rfl

theorem leadingWord_begins (text : List Char) : leadingWord text <+: text := by
  have whole : text.takeWhile isWordChar ++ text.dropWhile isWordChar = text :=
    List.takeWhile_append_dropWhile
  unfold leadingWord
  split
  · rename_i next rest hdrop
    dsimp only
    split
    · have tail : (next :: rest).takeWhile isWordChar <+: next :: rest := List.takeWhile_prefix _
      have point := (List.prefix_cons_inj '.').mpr tail
      rw [hdrop] at whole
      simpa only [whole] using (List.prefix_append_right_inj (text.takeWhile isWordChar)).mpr point
    · exact List.takeWhile_prefix _
  · exact List.takeWhile_prefix _

theorem restOfLine_begins (text : List Char) : restOfLine text <+: text := by
  unfold restOfLine
  have line : text.takeWhile (· ≠ '\n') <+: text := List.takeWhile_prefix _
  dsimp only
  split
  · exact (List.dropLast_prefix _).trans line
  · exact line

theorem ofQuote?_spelling {c : Char} {enclosure : Enclosure}
    (found : Enclosure.ofQuote? c = some enclosure) : [c] = enclosure.openingText := by
  unfold Enclosure.ofQuote? at found
  split at found <;> cases found <;> rfl

end Spellings

/-- A text that does not close the enclosure it stands in is no closing text of it. -/
theorem not_within_of_closing?_eq_none {within : Option Enclosure} {ahead : List Char}
    {enclosure : Enclosure} (unclosed : closing? within ahead = none)
    (begins : enclosure.closingText <+: ahead) : within ≠ some enclosure := by
  intro inside
  subst inside
  simp only [closing?, List.isPrefixOf_iff_prefix.mpr begins, if_true] at unclosed
  cases unclosed

/-- The lexemes that `c :: rest` can begin with in any place. -/
inductive Plain (previous : Option Char) (c : Char) (rest : List Char) :
    Category → List Char → Prop where
  | blockOpening (begins : ['/', '*'] <+: c :: rest) :
      Plain previous c rest .openBlockComment ['/', '*']
  | blockClosing (begins : ['*', '/'] <+: c :: rest) :
      Plain previous c rest .closeBlockComment ['*', '/']
  | escape {next : Char} (begins : ['\\', next] <+: c :: rest) :
      Plain previous c rest .escape ['\\', next]
  | quote {enclosure : Enclosure} (found : Enclosure.ofQuote? c = some enclosure) :
      Plain previous c rest enclosure.opener [c]
  | bracket {category : Category} (found : bracket? c = some category) :
      Plain previous c rest category [c]
  | word (isWordChar : isWordChar c = true) :
      Plain previous c rest (wordCategory (leadingWord (c :: rest))) (leadingWord (c :: rest))
  | operator {category : Category} {spelling : List Char}
      (found : operator? (c :: rest) = some (category, spelling)) :
      Plain previous c rest category spelling
  | angle {category : Category} (found : angle? previous c rest.head? = some category) :
      Plain previous c rest category [c]

theorem plainLexeme?_plain {previous : Option Char} {c : Char} {rest text : List Char}
    {category : Category} (found : plainLexeme? previous c rest = some (category, text)) :
    Plain previous c rest category text := by
  unfold plainLexeme? at found
  split at found
  · rename_i tail
    cases found
    exact .blockOpening ⟨tail, rfl⟩
  · rename_i tail
    cases found
    exact .blockClosing ⟨tail, rfl⟩
  · rename_i next tail
    cases found
    exact .escape ⟨tail, rfl⟩
  · split at found
    · rename_i enclosure hquote
      cases found
      exact .quote hquote
    · split at found
      · rename_i bracket hbracket
        cases found
        exact .bracket hbracket
      · split at found
        · rename_i hword
          cases found
          exact .word hword
        · split at found
          · rename_i hoperator
            cases found
            exact .operator hoperator
          · obtain ⟨value, hangle, hvalue⟩ := Option.map_eq_some_iff.mp found
            cases hvalue
            exact .angle hangle

/-- How the piece that `c :: rest` begins with is made. -/
inductive Made (within : Option Enclosure) (previous : Option Char) (c : Char) (rest : List Char) :
    Piece → Prop where
  | blank (isBlank : Text.isBlank c = true) : Made within previous c rest (.blank c)
  | closing (enclosure : Enclosure) (inside : within = some enclosure)
      (begins : enclosure.closingText <+: c :: rest) :
      Made within previous c rest (.lexeme enclosure.closer enclosure.closingText)
  | comment {category : Category} (outside : within = none)
      (found : lineComment? (c :: rest) = some category) :
      Made within previous c rest (.lexeme category (restOfLine (c :: rest)))
  | plain {category : Category} {text : List Char} (unclosed : closing? within (c :: rest) = none)
      (nonempty : text ≠ []) (found : Plain previous c rest category text) :
      Made within previous c rest (.lexeme category text)
  | danglingEscape (last : c :: rest = ['\\']) : Made within previous c rest .danglingEscape
  | stray (notBlank : Text.isBlank c = false) : Made within previous c rest (.stray c)

section Making

variable {within : Option Enclosure} {previous : Option Char} {c : Char} {rest text : List Char}
  {category : Category}

theorem closing?_made (found : closing? within (c :: rest) = some (category, text)) :
    Made within previous c rest (.lexeme category text) := by
  unfold closing? at found
  split at found
  · rename_i enclosure
    split at found
    · rename_i begins
      cases found
      exact .closing enclosure rfl (List.isPrefixOf_iff_prefix.mp begins)
    · cases found
  · cases found

theorem comment?_made (found : comment? within (c :: rest) = some (category, text)) :
    Made within previous c rest (.lexeme category text) := by
  unfold comment? at found
  split at found
  · cases found
  · obtain ⟨value, hline, hvalue⟩ := Option.map_eq_some_iff.mp found
    cases hvalue
    exact .comment rfl hline

/-- Only at the end of a text does a backslash begin no lexeme. -/
theorem nil_of_no_escape (none : plainLexeme? previous '\\' rest = none) : rest = [] := by
  cases rest with
  | nil => rfl
  | cons next tail => simp [plainLexeme?] at none

theorem pieceAt_made (within : Option Enclosure) (previous : Option Char) (c : Char)
    (rest : List Char) : Made within previous c rest (pieceAt within previous c rest) := by
  unfold pieceAt
  split
  · rename_i isBlank
    exact .blank isBlank
  · rename_i notBlank
    split
    · rename_i category text found
      rcases Option.or_eq_some_iff.mp found with closing | ⟨unclosed, found⟩
      · exact closing?_made closing
      · rcases Option.or_eq_some_iff.mp found with comment | ⟨_, plain⟩
        · exact comment?_made comment
        · exact .plain unclosed (plainLexeme?_ne_nil plain) (plainLexeme?_plain plain)
    · rename_i nothing
      split
      · rename_i escape
        subst escape
        simp only [Option.or_eq_none_iff] at nothing
        apply Made.danglingEscape
        rw [nil_of_no_escape nothing.2.2]
      · apply Made.stray
        simpa using notBlank

theorem Plain.cut (unclosed : closing? within (c :: rest) = none) (nonempty : text ≠ [])
    (plain : Plain previous c rest category text) :
    Cut within (c :: rest) (.lexeme category text) := by
  have single : [c] <+: c :: rest := ⟨rest, rfl⟩
  cases plain with
  | blockOpening begins => exact .opening .blockComment begins
  | blockClosing begins =>
    exact .foreignClosing (not_within_of_closing?_eq_none unclosed begins) begins
  | escape begins => exact .ordinary rfl nonempty begins
  | @quote enclosure hquote =>
    have spelling := ofQuote?_spelling hquote
    rw [spelling]
    exact .opening enclosure (spelling ▸ single)
  | bracket hbracket => exact .ordinary (bracket?_isOrdinary hbracket) nonempty single
  | word _ => exact .ordinary (wordCategory_isOrdinary _) nonempty (leadingWord_begins _)
  | operator hoperator =>
    have cut := operator?_cut hoperator
    exact .ordinary cut.2 nonempty cut.1
  | angle hangle => exact .ordinary (angle?_isOrdinary hangle) nonempty single

theorem Made.cut {piece : Piece} (made : Made within previous c rest piece) :
    Cut within (c :: rest) piece := by
  have single : [c] <+: c :: rest := ⟨rest, rfl⟩
  cases made with
  | blank isBlank => exact .blank single isBlank
  | closing enclosure inside begins => exact .closing enclosure inside begins
  | comment _ found =>
    exact .ordinary (lineComment?_isOrdinary found) (restOfLine_ne_nil found) (restOfLine_begins _)
  | plain unclosed nonempty found => exact found.cut unclosed nonempty
  | danglingEscape last => exact .danglingEscape (last ▸ List.prefix_refl _)
  | stray notBlank => exact .stray single notBlank

/-- Every piece is cut off as `Cut` says. -/
theorem pieceAt_cut (within : Option Enclosure) (previous : Option Char) (c : Char)
    (rest : List Char) : Cut within (c :: rest) (pieceAt within previous c rest) :=
  (pieceAt_made within previous c rest).cut

end Making

end Lexing

end Astra
